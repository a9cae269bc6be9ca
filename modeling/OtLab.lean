import OtLab.Lib.FirstMatch
import OtLab.Lib.Run
import OtLab.Lib.Window
import OtLab.Lib.Lines
import OtLab.Lib.Rearm
import OtLab.Lib.Progression
import OtLab.Lib.Spacing
import OtLab.Lib.Variation
import OtLab.Lib.Polling
import OtLab.Lib.Crc
import OtLab.Lib.Blocks
import OtLab.Lib.DictDiff
import OtLab.Lib.Interruptible
import OtLab.Lib.LineProtocol
import OtLab.Lib.Cycle
import OtLab.Lib.Amortized
import OtLab.Py.Bytes
import OtLab.Py.Utf8
import OtLab.Py.Value
import OtLab.Net.Address
import OtLab.Net.Packet
import OtLab.Firewall.Iptables
import OtLab.Firewall.Ruleset
import OtLab.Firewall.Conduits
import OtLab.Firewall.FailClosed
import OtLab.Firewall.Containment
import OtLab.Firewall.Conntrack
import OtLab.Firewall.Foothold
import OtLab.Firewall.TwoTools
import OtLab.Plc.NoWrap
import OtLab.Plc.IntakeCycle
import OtLab.Plc.OpenLoop
import OtLab.Plc.UnsafeBand
import OtLab.Plc.StandIn
import OtLab.Plc.Rollout
import OtLab.Plc.CheckBundles
import OtLab.Otdpi.Common
import OtLab.Otdpi.Logfmt
import OtLab.Otdpi.Dnp3
import OtLab.Otdpi.S7Encode
import OtLab.Otdpi.OpcUa
import OtLab.Otdpi.OpcUaEncode
import OtLab.Otdpi.Truncation
import OtLab.Otdpi.TelemetryLine
import OtLab.Attack.SimulateDnp3
import OtLab.Attack.SimulateS7comm
import OtLab.Attack.Crc16Dnp
import OtLab.Attack.LinkFraming
import OtLab.Detection.FirewallEvents
import OtLab.Detection.ProcessSafety
import OtLab.Detection.SafetyAlerts
import OtLab.Detection.Watchdog
import OtLab.Detection.Beacon
import OtLab.Detection.BeaconInvariant
import OtLab.Detection.Jitter
import OtLab.Detection.BruteForce
import OtLab.Detection.ExceptionWindow
import OtLab.Detection.ScanAttribution
import OtLab.Detection.Dnp3Anomaly
import OtLab.Detection.Separation
import OtLab.Detection.ModbusAnomaly
import OtLab.Detection.Dnp3Dpi
import OtLab.Detection.Dnp3Segments
import OtLab.Detection.S7commDpi
import OtLab.Detection.OpcUaDpi
import OtLab.Detection.HiddenMessages
import OtLab.Detection.Ciphertext
import OtLab.Detection.Sensors
import OtLab.Detection.SinkOutage
import OtLab.Siem.Rules
import OtLab.Siem.Classification
import OtLab.Siem.Webhook
import OtLab.Historian.Health
import OtLab.Historian.Points
import OtLab.Response.Responder
import OtLab.Response.Unblock
import OtLab.Response.Capture
import OtLab.Response.FailedBlock
import OtLab.Response.AutoBlock
import OtLab.Response.Follower
import OtLab.Response.LoginMonitor
import OtLab.Response.BadLines
import OtLab.Detection.CrossZone
import OtLab.Detection.LiveShadow
import OtLab.Attack.C2Beacon
import OtLab.Historian.Served
import OtLab.Response.Pipeline
import OtLab.Lib.Accumulate
import OtLab.Governance.AlertLog
import OtLab.Governance.Metrics
import OtLab.Governance.SecurityTests
import OtLab.Detection.SharedLog
import OtLab.Attack.Simulations
import OtLab.Plc.Integrity
import OtLab.Siem.Bundle
import OtLab.Siem.Ruler
