import DurableCalc.Error
import DurableCalc.Text.Lines

namespace DurableCalc.Journal

def terminator : UInt8 := 10

def parse (bytes : ByteArray) : Except Error (List String) :=
  match String.fromUTF8? bytes with
  | some text => .ok ((Text.lines text).filter fun line => !Text.isBlank line)
  | none => .error .corruptJournal

def render (entries : List String) : ByteArray :=
  (Text.unlines entries).toUTF8

def Storable (entry : String) : Prop :=
  Text.isBlank entry = false ∧ ∀ c ∈ entry.toList, c ≠ '\n' ∧ c ≠ '\r'

instance (entry : String) : Decidable (Storable entry) :=
  @instDecidableAnd _ _ _ (List.decidableBAll (fun c => c ≠ '\n' ∧ c ≠ '\r') entry.toList)

def validate (entry : String) : Except Error Unit :=
  if Storable entry then .ok () else .error (.invalidEntry entry)

theorem validate_eq_ok_iff {entry : String} : validate entry = .ok () ↔ Storable entry := by
  unfold validate
  split <;> simp_all

def parseSeed : Option String → Except Error Int64
  | none => .error (.corruptSeed none)
  | some entry =>
      match Numeral.readTrimmed? entry with
      | some seed => .ok seed
      | none => .error (.corruptSeed (some entry))

def terminated (bytes : ByteArray) : ByteArray :=
  match bytes[bytes.size - 1]? with
  | none => bytes
  | some b => if b = terminator then bytes else bytes.push terminator

def extended (bytes : ByteArray) (entry : String) : ByteArray :=
  terminated bytes ++ render [entry]

end DurableCalc.Journal
