import Intcode.Instruction
import Intcode.Tape

/-!
# Faults

Why a machine cannot go on. A fault names the cause and, where the report shows it, the address of
the instruction that was being executed.
-/
namespace Intcode

/-- Why a machine cannot go on. -/
inductive Fault where
  /-- The word at `ip` is no instruction. -/
  | decode (ip : UInt64) (cause : DecodeError)
  /-- The instruction at `ip` refers to a negative address. -/
  | negativeAddress (address : Word) (ip : UInt64)
  /-- The instruction refers to an address out of reach. -/
  | memoryLimit (address : Word) (limit : UInt64)
  /-- The instruction refers to a cell that no tape is long enough to keep. -/
  | capacity
  /-- The instruction at `ip` jumps to a negative address. -/
  | negativeJump (target : Word) (ip : UInt64)
  /-- A result of the instruction at `ip` is no word. -/
  | overflow (ip : UInt64)
  /-- As many instructions as allowed have been executed. -/
  | stepLimit (limit : UInt64)
  /-- The machine has halted and takes no input any more. -/
  | halted
  /-- The other end of a channel is gone. -/
  | channelClosed
  deriving DecidableEq

/-- The fault of an instruction whose access to the tape is refused. -/
def Refusal.fault (ip : UInt64) : Refusal → Fault
  | negative address => .negativeAddress address ip
  | beyondLimit address limit => .memoryLimit address limit
  | beyondCapacity _ => .capacity

/-- The report of a fault. -/
def Fault.message : Fault → String
  | decode ip cause => "decode fault at ip " ++ Decimal.text ip.toNat ++ ": " ++ cause.message
  | negativeAddress address ip =>
    "negative address " ++ address.text ++ " at ip " ++ Decimal.text ip.toNat
  | memoryLimit address limit =>
    "address " ++ address.text ++ " exceeds memory limit (" ++ Decimal.text limit.toNat ++
      " cells)"
  | capacity => "capacity overflow"
  | negativeJump target ip =>
    "negative jump target " ++ target.text ++ " at ip " ++ Decimal.text ip.toNat
  | overflow ip => "arithmetic overflow at ip " ++ Decimal.text ip.toNat
  | stepLimit limit => "max execution steps exceeded (" ++ Decimal.text limit.toNat ++ ")"
  | halted => "vm has halted"
  | channelClosed => "channel closed"

end Intcode
