namespace DurableCalc.Path

def namesFrom (before : List Char) : List Char → List String
  | [] => [String.ofList before.reverse]
  | c :: cs =>
      if c = '/' then String.ofList before.reverse :: namesFrom [] cs
      else namesFrom (c :: before) cs

def names (path : String) : List String :=
  (namesFrom [] path.toList).filter fun n => n ≠ ""

def holdsNull (path : String) : Bool :=
  path.toList.contains '\x00'

def isAbsolute (path : String) : Bool :=
  path.toList.head? = some '/'

def significant (path : String) : List String :=
  match names path with
  | [] => []
  | n :: ns =>
      if isAbsolute path ∨ n ≠ "." then (n :: ns).filter fun m => m ≠ "."
      else n :: ns.filter fun m => m ≠ "."

def Equivalent (p q : String) : Prop :=
  isAbsolute p = isAbsolute q ∧ significant p = significant q

instance (p q : String) : Decidable (Equivalent p q) :=
  inferInstanceAs (Decidable (_ ∧ _))

def ofNames (absolute : Bool) (ns : List String) : String :=
  (if absolute then "/" else "") ++ String.intercalate "/" ns

def parent? (path : String) : Option String :=
  match significant path with
  | [] => none
  | ns => some (ofNames (isAbsolute path) ns.dropLast)

def ancestors (path : String) : List String :=
  let ns := significant path
  (List.range ns.length).reverse.map fun k => ofNames (isAbsolute path) (ns.take k)

def dropDots : List Char → List Char
  | '/' :: cs => dropDots cs
  | '.' :: '/' :: cs => dropDots cs
  | ['.'] => []
  | cs => cs

def trimmed (path : String) : String :=
  String.ofList (dropDots (dropDots path.toList).reverse).reverse

def join (directory path : String) : String :=
  if isAbsolute path ∨ directory = "" then path
  else if directory.toList.getLast? = some '/' then directory ++ path
  else directory ++ ("/" ++ path)

end DurableCalc.Path
