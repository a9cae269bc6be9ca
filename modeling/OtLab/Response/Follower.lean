import OtLab.Lib.Lines
import OtLab.Lib.Run

/-!
# Following a log

The two readers that follow a log file: the main loop of `responder.py` on the alert log and
`tail` of the HMI login monitor on the proxy's access log. Both open the file once, at its end,
and poll `readline` on that handle from then on.

Files are numbered by inode. A producer opens the path for appending, which creates the file when
the path is missing, and then writes to that inode, in one or several pieces; a rename takes the
file away from the path but not from those who have it open. `appended` is what an observer would
write down: the lines of the log completed since the follower started.

The text decodes as UTF-8 and has no carriage return, which a file opened as text would also take
for the end of a line; the producers write neither.

* `followers_lose_no_line` — in runs without writes to a file the reader does not have open and
  without polls in the middle of a line, a drained reader has handed over every line
* `followers_lose_lines` — in other runs it has not
-/

namespace OtLab.Follower

open Lib

/-! ## The file system -/

/-- The contents of all files by inode, and the inode the path of the log names. -/
structure Files where
  contents : List (List Char)
  path : Option Nat

/-- `open(path, "a")`: creates the file when the path is missing. -/
def Files.openAppend (f : Files) : Files :=
  match f.path with
  | some _ => f
  | none => ⟨f.contents ++ [[]], some f.contents.length⟩

/-- Text that becomes visible at the end of a file. -/
def Files.write (f : Files) (i : Nat) (piece : List Char) : Files :=
  { f with contents := f.contents.modify i (· ++ piece) }

/-- `ALERT_LOG.replace(backup)`. -/
def Files.rename (f : Files) : Files := { f with path := none }

/-- What is to be read in file `i`. -/
def Files.text (f : Files) (i : Nat) : List Char := f.contents.getD i []

/-! ## The readers -/

inductive Reader where
  | responder
  | monitor
deriving DecidableEq

/-- An open file and the offset up to which it has been read. -/
structure Handle where
  inode : Nat
  offset : Nat

structure State where
  files : Files
  handle : Option Handle
  /-- `process_line` raised, which ends the program -/
  dead : Bool
  calls : List (List Char)
  appended : List (List Char)

/-- A follower that starts on existing files. -/
def State.start (f : Files) : State := ⟨f, none, false, [], []⟩

/-- What the handle has not read yet. -/
def State.unread (s : State) (h : Handle) : List Char := (s.files.text h.inode).drop h.offset

/-- A piece is appended to a file; the observer writes down the lines it completes. -/
def State.append (s : State) (i : Nat) (piece : List Char) : State :=
  { s with
    files := s.files.write i piece
    appended :=
      s.appended ++ (splitLines '\n' (unfinished '\n' (s.files.text i)) piece).1 }

/-- Opens the log at its end. -/
def State.openLog (s : State) : State :=
  match s.files.path with
  | none => s
  | some i => { s with handle := some ⟨i, (s.files.text i).length⟩ }

/-- `line = handle.readline()`, and `process_line(line)` unless it is empty. -/
def State.readLog (s : State) (h : Handle) (raises : Bool) : State :=
  let line := readline '\n' (s.unread h)
  if line = [] then s
  else
    { s with
      handle := some { h with offset := h.offset + line.length }
      calls := s.calls ++ [line]
      dead := raises }

/-- One round of the polling loop. The monitor waits while the path is missing. -/
def State.poll (reader : Reader) (s : State) (raises : Bool) : State :=
  if s.dead then s
  else if reader = .monitor ∧ s.files.path = none then s
  else
    match s.handle with
    | none => s.openLog
    | some h => s.readLog h raises

/-! ## Runs -/

inductive Event where
  | openAppend
  | write (inode : Nat) (piece : List Char)
  | rename
  | poll (raises : Bool)

def State.step (reader : Reader) (s : State) : Event → State
  | .openAppend => { s with files := s.files.openAppend }
  | .write i piece =>
    if i < s.files.contents.length then s.append i piece else s
  | .rename => { s with files := s.files.rename }
  | .poll raises => s.poll reader raises

/-- The reader is waiting for more text. -/
def State.Drained (s : State) : Prop := s.dead = false ∧ ∃ h ∈ s.handle, s.unread h = []

/--
The step keeps the reader on the log: text is only written to the file the reader has open, a
reader that opens the log finds it at the end of a line, and a poll finds no line unfinished
in what it is about to read.
-/
def State.Keeps (reader : Reader) (s : State) : Event → Prop
  | .openAppend => True
  | .write i piece => piece ≠ [] → ∃ h ∈ s.handle, h.inode = i
  | .rename => True
  | .poll _ => s.dead = false → ¬ (reader = .monitor ∧ s.files.path = none) →
      match s.handle with
      | none => ∀ i ∈ s.files.path, unfinished '\n' (s.files.text i) = []
      | some h => s.unread h ≠ [] → '\n' ∈ s.unread h

/-! ## The invariant -/

theorem text_openAppend (f : Files) (i : Nat) : f.openAppend.text i = f.text i := by
  unfold Files.openAppend Files.text
  cases f.path with
  | some _ => rfl
  | none =>
    simp only [List.getD_eq_getElem?_getD]
    rcases Nat.lt_trichotomy i f.contents.length with hi | rfl | hi
    · rw [List.getElem?_append_left hi]
    · simp
    · rw [List.getElem?_eq_none (by rw [List.length_append]; exact hi),
        List.getElem?_eq_none (Nat.le_of_lt hi)]

theorem text_write {f : Files} {i : Nat} (hi : i < f.contents.length) (piece : List Char)
    (j : Nat) : (f.write i piece).text j = if i = j then f.text i ++ piece else f.text j := by
  unfold Files.write Files.text
  simp only [List.getD_eq_getElem?_getD, List.getElem?_modify]
  split
  · next h =>
    subst h
    simp [List.getElem?_eq_getElem hi]
  · simp

/--
The reader's offset is at a line boundary, and the lines handed over together with the complete
lines still to be read are the lines appended.
-/
structure Follows (s : State) (h : Handle) : Prop where
  offset_le : h.offset ≤ (s.files.text h.inode).length
  boundary : unfinished '\n' ((s.files.text h.inode).take h.offset) = []
  lines : s.calls ++ (splitLines '\n' [] (s.unread h)).1 = s.appended

def State.Inv (s : State) : Prop :=
  match s.handle with
  | none => s.calls = [] ∧ s.appended = []
  | some h => Follows s h

theorem unfinished_text {s : State} {h : Handle} (hf : Follows s h) :
    unfinished '\n' (s.files.text h.inode) = unfinished '\n' (s.unread h) := by
  unfold unfinished
  conv_lhs => rw [← List.take_append_drop h.offset (s.files.text h.inode), splitLines_append]
  have hb : (splitLines '\n' [] ((s.files.text h.inode).take h.offset)).2 = [] := hf.boundary
  rw [hb]
  rfl

/-- Text written to the file the reader has open is text it has not read. -/
theorem follows_write {s : State} {h : Handle} {piece : List Char} (hf : Follows s h)
    (hi : h.inode < s.files.contents.length) :
    Follows (s.append h.inode piece) h := by
  have htext : (s.files.write h.inode piece).text h.inode = s.files.text h.inode ++ piece := by
    rw [text_write hi, if_pos rfl]
  refine ⟨?_, ?_, ?_⟩
  · show h.offset ≤ ((s.files.write h.inode piece).text h.inode).length
    rw [htext, List.length_append]
    exact Nat.le_trans hf.offset_le (Nat.le_add_right _ _)
  · show unfinished '\n' (((s.files.write h.inode piece).text h.inode).take h.offset) = []
    rw [htext, List.take_append_of_le_length hf.offset_le]
    exact hf.boundary
  · show s.calls ++ (splitLines '\n' [] (((s.files.write h.inode piece).text h.inode).drop
      h.offset)).1 = s.appended ++ (splitLines '\n' (unfinished '\n'
        (s.files.text h.inode)) piece).1
    rw [htext, List.drop_append_of_le_length hf.offset_le, splitLines_append, ← hf.lines,
      unfinished_text hf, List.append_assoc]
    rfl

/-- A line read is the first of the complete lines still to be read. -/
theorem follows_readLog {s : State} {h : Handle} {raises : Bool} (hs : s.handle = some h)
    (hf : Follows s h) (hline : s.unread h ≠ [] → '\n' ∈ s.unread h) :
    (s.readLog h raises).Inv := by
  unfold State.readLog
  by_cases hne : readline '\n' (s.unread h) = []
  · rw [if_pos hne]
    show match s.handle with | none => _ | some h => Follows s h
    rw [hs]
    exact hf
  · rw [if_neg hne]
    -- there is unread text, so the line read ends in its newline
    have hmem : '\n' ∈ s.unread h := hline (mt readline_eq_nil_iff.mpr hne)
    have hlen : (s.unread h).length = (s.files.text h.inode).length - h.offset :=
      List.length_drop
    refine ⟨?_, ?_, ?_⟩
    · have hle := length_readline_le '\n' (s.unread h)
      have hoff := hf.offset_le
      show h.offset + (readline '\n' (s.unread h)).length ≤ (s.files.text h.inode).length
      omega
    · show unfinished '\n' ((s.files.text h.inode).take
        (h.offset + (readline '\n' (s.unread h)).length)) = []
      have hb : (splitLines '\n' [] ((s.files.text h.inode).take h.offset)).2 = [] := hf.boundary
      have hline : ((s.files.text h.inode).drop h.offset).take
          (readline '\n' (s.unread h)).length = readline '\n' (s.unread h) :=
        take_length_readline (s.unread h)
      rw [List.take_add, hline, unfinished, splitLines_append, hb, splitLines_readline hmem]
    · show (s.calls ++ [readline '\n' (s.unread h)]) ++ (splitLines '\n' []
        ((s.files.text h.inode).drop (h.offset + (readline '\n' (s.unread h)).length))).1
          = s.appended
      rw [← hf.lines, splitLines_of_mem hmem, List.append_assoc, ← List.drop_drop]
      rfl

theorem State.inv_of_some {s : State} {h : Handle} (hs : s.handle = some h) :
    s.Inv ↔ Follows s h := by
  unfold State.Inv
  rw [hs]

/-- The invariant only looks at what can be read. -/
theorem State.Inv.of_text {s s' : State} (hs : s.Inv) (hh : s'.handle = s.handle)
    (hc : s'.calls = s.calls) (ha : s'.appended = s.appended)
    (ht : ∀ i, s'.files.text i = s.files.text i) : s'.Inv := by
  cases hhandle : s.handle with
  | none =>
    unfold State.Inv at hs ⊢
    rw [hhandle] at hs hh
    rw [hh]
    exact ⟨hc.trans hs.1, ha.trans hs.2⟩
  | some h =>
    rw [State.inv_of_some hhandle] at hs
    rw [State.inv_of_some (hh.trans hhandle)]
    refine ⟨(ht _).symm ▸ hs.offset_le, (ht _).symm ▸ hs.boundary, ?_⟩
    rw [hc, ha, State.unread, ht]
    exact hs.lines

theorem State.inv_write {reader : Reader} {s : State} {i : Nat} {piece : List Char} (hs : s.Inv)
    (hk : s.Keeps reader (.write i piece)) : (s.step reader (.write i piece)).Inv := by
  show State.Inv (if i < s.files.contents.length then s.append i piece else s)
  by_cases hi : i < s.files.contents.length
  · rw [if_pos hi]
    by_cases hpiece : piece = []
    · refine hs.of_text rfl rfl ?_ fun j => ?_
      · rw [hpiece]
        exact List.append_nil _
      · show (s.files.write i piece).text j = _
        rw [text_write hi, hpiece, List.append_nil]
        split
        · next heq => rw [heq]
        · rfl
    · -- the file written to is the one the reader has open
      obtain ⟨h, hh, rfl⟩ := hk hpiece
      have hh : s.handle = some h := hh
      rw [State.inv_of_some hh] at hs
      exact (State.inv_of_some (s := s.append h.inode piece) hh).mpr (follows_write hs hi)
  · rw [if_neg hi]
    exact hs

/-- A reader that opens the log at the end of a line has nothing to read yet. -/
theorem State.inv_openLog {s : State} (hs : s.Inv) (hh : s.handle = none)
    (hk : ∀ i ∈ s.files.path, unfinished '\n' (s.files.text i) = []) : s.openLog.Inv := by
  have hnone : s.calls = [] ∧ s.appended = [] := by
    unfold State.Inv at hs
    rwa [hh] at hs
  unfold State.openLog
  split
  · exact hs
  · next i hpath =>
    refine ⟨Nat.le_refl _, ?_, ?_⟩
    · show unfinished '\n' ((s.files.text i).take (s.files.text i).length) = []
      rw [List.take_length]
      exact hk i hpath
    · show s.calls ++ (splitLines '\n' [] ((s.files.text i).drop (s.files.text i).length)).1
        = s.appended
      rw [List.drop_length, hnone.1, hnone.2]
      rfl

/-- One step keeps the invariant. -/
theorem State.inv_step {reader : Reader} {s : State} {ev : Event} (hs : s.Inv)
    (hk : s.Keeps reader ev) : (s.step reader ev).Inv := by
  cases ev with
  | openAppend => exact hs.of_text rfl rfl rfl (text_openAppend s.files)
  | rename => exact hs.of_text rfl rfl rfl fun _ => rfl
  | write i piece => exact inv_write hs hk
  | poll raises =>
    show (s.poll reader raises).Inv
    unfold State.poll
    by_cases hdead : s.dead = true
    · rw [if_pos hdead]
      exact hs
    by_cases hpath : reader = .monitor ∧ s.files.path = none
    · rw [if_neg hdead, if_pos hpath]
      exact hs
    rw [if_neg hdead, if_neg hpath]
    have hk := hk (Bool.eq_false_iff.mpr hdead) hpath
    cases hh : s.handle with
    | none =>
      rw [hh] at hk
      exact inv_openLog hs hh hk
    | some h =>
      rw [hh] at hk
      exact follows_readLog hh ((State.inv_of_some hh).mp hs) hk

/--
**No line is lost in runs that keep the reader on the log.**

Whichever follower, whatever files it starts on: in every run of appends, renames and polls whose
steps all meet `Keeps`, once the reader is waiting for more text, it has called `process_line`
exactly once, in order, with each line completed since it started. The text has no carriage return
and decodes as UTF-8.
-/
theorem followers_lose_no_line (reader : Reader) (files : Files) (evs : List Event)
    (hkeeps : StepsMeet (State.step reader) (State.Keeps reader) (State.start files) evs)
    (hdrained : (run (State.step reader) (State.start files) evs).Drained) :
    (run (State.step reader) (State.start files) evs).calls
      = (run (State.step reader) (State.start files) evs).appended := by
  have hstart : (State.start files).Inv := ⟨rfl, rfl⟩
  have hinv := run_invariant State.Inv (fun _ _ => State.inv_step) hstart hkeeps
  obtain ⟨-, h, hh, hunread⟩ := hdrained
  have hlines := ((State.inv_of_some hh).mp hinv).lines
  rw [hunread] at hlines
  exact (List.append_nil _).symm.trans hlines

/-- The monitor follows an access log in which one request is logged in two pieces. -/
theorem followers_lose_no_line_pieces :
    (run (State.step .monitor) (State.start ⟨[[]], some 0⟩)
      [.poll false, .openAppend, .write 0 ['a'], .write 0 ['\n'], .poll false]).calls
      = [['a', '\n']] :=
  followers_lose_no_line .monitor ⟨[[]], some 0⟩ _
    ⟨fun _ _ i hi => Option.mem_some_iff.mp hi ▸ rfl, trivial, fun _ => ⟨_, rfl, rfl⟩,
      fun _ => ⟨_, rfl, rfl⟩, fun _ _ _ => by decide, trivial⟩
    ⟨rfl, _, rfl, by decide⟩

/--
A line that is read while only half of it is visible is handed over in two halves, so neither
follower gets every line in every run.
-/
theorem followers_lose_lines :
    ¬ ∀ (reader : Reader) (files : Files) (evs : List Event),
      (run (State.step reader) (State.start files) evs).Drained →
      (run (State.step reader) (State.start files) evs).calls
        = (run (State.step reader) (State.start files) evs).appended := by
  intro h
  have hlost := h .responder ⟨[[]], some 0⟩
    [.poll false, .openAppend, .write 0 ['a'], .poll false, .write 0 ['b', '\n'], .poll false]
    ⟨rfl, _, rfl, by decide⟩
  revert hlost
  decide

end OtLab.Follower
