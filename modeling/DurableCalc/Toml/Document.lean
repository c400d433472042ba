import DurableCalc.Toml.Grammar

namespace DurableCalc.Toml

namespace Fields

def openTable (key : String) (fs : Fields) : Option Fields :=
  match get? key fs with
  | none => some (add key (.table .headed []) fs)
  | some (.table .implied inner) => some (add key (.table .headed inner) (erase key fs))
  | some _ => none

def openElement (key : String) (fs : Fields) : Option Fields :=
  match get? key fs with
  | none => some (add key (.tables [[]]) fs)
  | some (.tables items) => some (set key (.tables (items ++ [[]])) fs)
  | some _ => none

def within (change : Fields → Option Fields) : List String → Fields → Option Fields
  | [], fs => change fs
  | k :: ks, fs =>
      match get? k fs with
      | none => do
          let inner ← within change ks []
          some (add k (.table .implied inner) fs)
      | some (.table .inline _) => none
      | some (.table origin inner) => do
          let inner ← within change ks inner
          some (set k (.table origin inner) fs)
      | some (.tables items) =>
          match items.getLast? with
          | some inner => do
              let inner ← within change ks inner
              some (set k (.tables (items.dropLast ++ [inner])) fs)
          | none => none
      | some _ => none

def build : List Statement → List String → Fields → Option Fields
  | [], _, fs => some fs
  | .table p :: rest, _, fs => do
      let fs ← within (openTable p.last) p.parents fs
      build rest (p.parents ++ [p.last]) fs
  | .element p :: rest, _, fs => do
      let fs ← within (openElement p.last) p.parents fs
      build rest (p.parents ++ [p.last]) fs
  | .assign p v :: rest, current, fs => do
      let fs ← within (assign v p.last p.parents) current fs
      build rest current fs

end Fields

def document? (text : String) : Option Fields := do
  let statements ← Statement.ofText? text
  Fields.build statements [] []

end DurableCalc.Toml
