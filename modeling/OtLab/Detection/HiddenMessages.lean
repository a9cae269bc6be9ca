import OtLab.Detection.Dnp3Dpi
import OtLab.Detection.ModbusAnomaly
import OtLab.Detection.OpcUaDpi
import OtLab.Detection.S7commDpi

/-!
# Messages that hide behind another one

The four producers that decode one message a payload, together.

* `no_message_hides_iff` — exactly when each of them alerts on a series of messages in one payload
  as if they came one by one
* `a_message_hides` — a write behind a read is missed
-/

namespace OtLab

/--
**When no message hides behind another one.**

Each producer alerts on a series of messages in one payload as if they came one by one exactly
when nothing in the series after the first message is to be reported; for Modbus the register
address of a first write has to lie within it as well, and for DNP3 what is read off the boundary
behind a first frame without user data has to be what is to be reported of the later frames.
-/
theorem no_message_hides_iff (authorized : List IPv4) (masters : List Nat) (src dst : IPv4)
    (h : TcpHeader) :
    (∀ (m : ModbusAnomaly.Adu) (ms : List ModbusAnomaly.Adu),
      Separates (ModbusAnomaly.processPacket authorized) src dst h
        ((m :: ms).map ModbusAnomaly.Adu.bytes) ↔
          ModbusAnomaly.Separated authorized src h m ms) ∧
    (∀ (f : Dnp3.LinkFrame) (fs : List Dnp3.LinkFrame),
      Separates (Dnp3Dpi.processPacket masters) src dst h
        ((f :: fs).map Dnp3.LinkFrame.bytes) ↔ Dnp3Dpi.Separated masters h f fs) ∧
    (∀ (m : S7comm.Tpkt) (ms : List S7comm.Tpkt),
      Separates S7commDpi.processPacket src dst h ((m :: ms).map S7comm.Tpkt.bytes) ↔
        S7commDpi.Separated h ms) ∧
    (∀ (m : OpcUa.Message) (ms : List OpcUa.Message),
      Separates OpcUaDpi.processPacket src dst h ((m :: ms).map OpcUa.Message.bytes) ↔
        OpcUaDpi.Separated h ms) :=
  ⟨ModbusAnomaly.separates_iff authorized src dst h, Dnp3Dpi.separates_iff masters src dst h,
    S7commDpi.separates_iff src dst h, OpcUaDpi.separates_iff src dst h⟩

/-- A request to read one register. -/
def readRequest : ModbusAnomaly.Adu := ⟨1, 1, 3, [0, 0, 0, 1], by decide⟩

/-- A request to open the inlet valve. -/
def writeRequest : ModbusAnomaly.Adu := ⟨2, 1, 6, [0, 0, 0, 1], by decide⟩

/-- An unauthorized write behind a read in one payload raises no alert. -/
theorem a_message_hides :
    ¬ ∀ (authorized : List IPv4) (masters : List Nat) (src dst : IPv4) (h : TcpHeader),
      (∀ (m : ModbusAnomaly.Adu) (ms : List ModbusAnomaly.Adu),
        Separates (ModbusAnomaly.processPacket authorized) src dst h
          ((m :: ms).map ModbusAnomaly.Adu.bytes)) ∧
      (∀ (f : Dnp3.LinkFrame) (fs : List Dnp3.LinkFrame),
        Separates (Dnp3Dpi.processPacket masters) src dst h
          ((f :: fs).map Dnp3.LinkFrame.bytes)) ∧
      (∀ (m : S7comm.Tpkt) (ms : List S7comm.Tpkt),
        Separates S7commDpi.processPacket src dst h ((m :: ms).map S7comm.Tpkt.bytes)) ∧
      (∀ (m : OpcUa.Message) (ms : List OpcUa.Message),
        Separates OpcUaDpi.processPacket src dst h ((m :: ms).map OpcUa.Message.bytes)) := by
  intro hall
  have hmodbus := (hall ModbusAnomaly.authorizedWriters Dnp3.authorizedMasters ⟨172, 24, 0, 10⟩
    ⟨172, 21, 0, 10⟩ ⟨40000, 502, 0x18⟩).1 readRequest [writeRequest]
  rw [ModbusAnomaly.separates_iff] at hmodbus
  have hsilent := (hmodbus rfl (by decide)).2 writeRequest List.mem_cons_self
  revert hsilent
  decide

end OtLab
