import DurableCalc.Toml.Value

namespace DurableCalc.Toml

structure KeyPath where
  parents : List String
  last : String
  deriving DecidableEq, Repr

inductive Statement where
  | table (path : KeyPath)
  | element (path : KeyPath)
  | assign (path : KeyPath) (value : Value)

namespace KeyPath

def ofList? : List String → Option KeyPath
  | [] => none
  | [k] => some ⟨[], k⟩
  | k :: ks => (ofList? ks).map fun p => { p with parents := k :: p.parents }

end KeyPath

namespace Fields

def assign (value : Value) (key : String) : List String → Fields → Option Fields
  | [], fs =>
      match get? key fs with
      | none => some (add key value fs)
      | some _ => none
  | k :: ks, fs =>
      match get? k fs with
      | none => do
          let inner ← assign value key ks []
          some (add k (.table .dotted inner) fs)
      | some (.table .dotted inner) => do
          let inner ← assign value key ks inner
          some (set k (.table .dotted inner) fs)
      | some (.table .implied inner) =>
          match ks with
          | [] => none
          | _ :: _ => do
              let inner ← assign value key ks inner
              some (set k (.table .implied inner) fs)
      | some (.tables items) =>
          match ks, items.getLast? with
          | _ :: _, some inner => do
              let inner ← assign value key ks inner
              some (set k (.tables (items.dropLast ++ [inner])) fs)
          | _, _ => none
      | some _ => none

def ofAssignments : List (KeyPath × Value) → Fields → Option Fields
  | [], fs => some fs
  | (p, v) :: rest, fs => do
      let fs ← assign v p.last p.parents fs
      ofAssignments rest fs

end Fields

end DurableCalc.Toml
