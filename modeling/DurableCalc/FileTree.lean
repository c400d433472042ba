import DurableCalc.Files

namespace DurableCalc

inductive Node where
  | file (bytes : ByteArray)
  | directory

abbrev FileTree := List (List String × Node)

namespace FileTree

def get? (t : FileTree) (p : List String) : Option Node :=
  if p = [] then some .directory else (t.find? fun e => e.1 = p).map Prod.snd

def holdsDirectory (t : FileTree) (p : List String) : Bool :=
  match get? t p with
  | some .directory => true
  | _ => false

def erase (t : FileTree) (p : List String) : FileTree :=
  t.filter fun e => e.1 ≠ p

def put (t : FileTree) (p : List String) (n : Node) : FileTree :=
  erase t p ++ [(p, n)]

theorem get?_erase_of_ne (t : FileTree) {p q : List String} (h : q ≠ p) :
    get? (erase t p) q = get? t q := by
  by_cases hq : q = []
  · simp [get?, hq]
  · simp only [get?, hq, if_false]
    congr 1
    induction t with
    | nil => rfl
    | cons e t ih =>
        by_cases he : e.1 = q
        · have : e.1 ≠ p := fun h' => h (he.symm.trans h')
          simp [erase, he, h]
        · by_cases hp : e.1 = p
          · simpa [erase, hp, Ne.symm h] using ih
          · simpa [erase, hp, he] using ih

theorem get?_put_of_ne (t : FileTree) {p q : List String} (n : Node) (h : q ≠ p) :
    get? (put t p n) q = get? t q := by
  rw [← get?_erase_of_ne t h]
  by_cases hq : q = []
  · simp [get?, hq]
  · simp [get?, put, hq, List.find?_append, Ne.symm h]

theorem get?_put_self (t : FileTree) {p : List String} (n : Node) (h : p ≠ []) :
    get? (put t p n) p = some n := by
  have : (erase t p).find? (fun e => e.1 = p) = none := by
    simp [erase, List.find?_eq_none]
  simp [get?, put, h, List.find?_append, this]

def nameLimit : Nat := 255

def pathLimit : Nat := 4095

def walk (t : FileTree) : List String → List String → Except Failure (List String)
  | here, [] => .ok here
  | here, n :: ns =>
      if n = "." then walk t here ns
      else if n = ".." then walk t here.dropLast ns
      else if nameLimit < n.utf8ByteSize then .error .nameTooLong
      else
        match get? t (here ++ [n]) with
        | none => .error .notFound
        | some (.file _) => .error .notADirectory
        | some .directory => walk t (here ++ [n]) ns

inductive Place where
  | dots
  | entry (p : List String) (slash : Bool)

def locate (t : FileTree) (cwd : List String) (path : String) : Except Failure Place :=
  if path = "" then .error .notFound
  else if pathLimit < path.utf8ByteSize then .error .nameTooLong
  else
    let start := if Path.isAbsolute path then [] else cwd
    let ns := Path.names path
    match ns.getLast? with
    | none => .ok .dots
    | some last =>
        match walk t start ns.dropLast with
        | .error f => .error f
        | .ok here =>
            if last = "." ∨ last = ".." then .ok .dots
            else if nameLimit < last.utf8ByteSize then .error .nameTooLong
            else .ok (.entry (here ++ [last]) (decide (path.toList.getLast? = some '/')))

def makeDirectory (cwd : List String) (path : String) (t : FileTree) :
    Except Failure Unit × FileTree :=
  match locate t cwd path with
  | .error f => (.error f, t)
  | .ok .dots => (.error .alreadyExists, t)
  | .ok (.entry p _) =>
      match get? t p with
      | none => (.ok (), put t p .directory)
      | some _ => (.error .alreadyExists, t)

def isDirectory (cwd : List String) (path : String) (t : FileTree) : Bool :=
  match locate t cwd path with
  | .error _ => false
  | .ok .dots => true
  | .ok (.entry p _) => holdsDirectory t p

def isThere (cwd : List String) (path : String) (t : FileTree) : Bool :=
  match locate t cwd path with
  | .error _ => false
  | .ok .dots => true
  | .ok (.entry p slash) =>
      match get? t p with
      | none => false
      | some .directory => true
      | some (.file _) => !slash

def read (cwd : List String) (path : String) (t : FileTree) : Except Failure ByteArray :=
  match locate t cwd path with
  | .error f => .error f
  | .ok .dots => .error .isADirectory
  | .ok (.entry p slash) =>
      match get? t p with
      | none => .error .notFound
      | some .directory => .error .isADirectory
      | some (.file bytes) => if slash then .error .notADirectory else .ok bytes

def update (cwd : List String) (path : String) (change : ByteArray → ByteArray) (t : FileTree) :
    Except Failure Unit × FileTree :=
  match locate t cwd path with
  | .error f => (.error f, t)
  | .ok .dots => (.error .isADirectory, t)
  | .ok (.entry p slash) =>
      match get? t p with
      | some .directory => (.error .isADirectory, t)
      | some (.file bytes) =>
          if slash then (.error .isADirectory, t) else (.ok (), put t p (.file (change bytes)))
      | none =>
          if slash then (.error .isADirectory, t)
          else (.ok (), put t p (.file (change ByteArray.empty)))

def freshName (t : FileTree) (directory : List String) : Nat → Nat → String
  | 0, n => ".tmp" ++ Numeral.write n
  | tries + 1, n =>
      let name := ".tmp" ++ Numeral.write n
      if get? t (directory ++ [name]) = none then name else freshName t directory tries (n + 1)

def rename (cwd : List String) (source : Files.Temporary) (target : String) (t : FileTree) :
    Except Failure Unit × FileTree :=
  match locate t cwd target with
  | .error f => (.error f, t)
  | .ok .dots => (.error .busy, t)
  | .ok (.entry q slash) =>
      match get? t source with
      | some (.file bytes) =>
          if slash then (.error .notADirectory, t)
          else if holdsDirectory t q then (.error .isADirectory, t)
          else (.ok (), put (erase t source) q (.file bytes))
      | _ => (.error .notFound, t)

def remove (source : Files.Temporary) (t : FileTree) : FileTree :=
  match get? t source with
  | some (.file _) => erase t source
  | _ => t

def grow (t : FileTree) : List String → List String → FileTree
  | _, [] => t
  | here, n :: ns =>
      let p := here ++ [n]
      match get? t p with
      | none => grow (put t p .directory) p ns
      | some _ => grow t p ns

def plant (t : FileTree) (p : List String) (n : Node) : FileTree :=
  put (grow t [] p.dropLast) p n

end FileTree

/-- What is left to the disk: how a temporary file is named, how many bytes of a path are set aside for such
a name, and which writes to such a file fail, with what they leave in it, and which syncs. -/
structure Disk where
  name : FileTree → List String → String
  nameSize : Nat
  refusedWrite : FileTree → Files.Temporary → ByteArray → Option (Failure × ByteArray)
  refusedSync : FileTree → Files.Temporary → Option Failure

namespace Disk

open FileTree (get? pathLimit put walk)

def createTemporary (disk : Disk) (cwd : List String) (directory : String) (t : FileTree) :
    Except Failure Files.Temporary × FileTree :=
  let base := Path.join (Path.ofNames true cwd) directory
  if pathLimit < (Path.join base "").utf8ByteSize + disk.nameSize then (.error .nameTooLong, t)
  else
    let start := if Path.isAbsolute directory then [] else cwd
    match walk t start (Path.names directory) with
    | .error f => (.error f, t)
    | .ok here =>
        let p := here ++ [disk.name t here]
        match get? t p with
        | some _ => (.error .alreadyExists, t)
        | none => (.ok p, put t p (.file ByteArray.empty))

def writeTemporary (disk : Disk) (temporary : Files.Temporary) (bytes : ByteArray) (t : FileTree) :
    Except Failure Unit × FileTree :=
  match disk.refusedWrite t temporary bytes with
  | some (f, part) => (.error f, put t temporary (.file part))
  | none => (.ok (), put t temporary (.file bytes))

def syncTemporary (disk : Disk) (temporary : Files.Temporary) (t : FileTree) :
    Except Failure Unit :=
  match disk.refusedSync t temporary with
  | some f => .error f
  | none => .ok ()

def files (disk : Disk) (cwd : List String) : Handler Files FileTree
  | .makeDirectory path, t => FileTree.makeDirectory cwd path t
  | .isDirectory path, t => (FileTree.isDirectory cwd path t, t)
  | .isThere path, t => (FileTree.isThere cwd path t, t)
  | .read path, t => (FileTree.read cwd path t, t)
  | .openForAppend path, t => FileTree.update cwd path id t
  | .write path bytes, t => FileTree.update cwd path (fun _ => bytes) t
  | .createTemporary directory, t => disk.createTemporary cwd directory t
  | .writeTemporary temporary bytes, t => disk.writeTemporary temporary bytes t
  | .syncTemporary temporary, t => (disk.syncTemporary temporary t, t)
  | .rename temporary target, t => FileTree.rename cwd temporary target t
  | .remove temporary, t => ((), FileTree.remove temporary t)

def standard : Disk where
  name t here := FileTree.freshName t here t.length 0
  nameSize := 10
  refusedWrite _ _ _ := none
  refusedSync _ _ := none

end Disk

namespace FileTree

def files (cwd : List String) : Handler Files FileTree :=
  Disk.standard.files cwd

end FileTree

end DurableCalc
