import DurableCalc.CommandLine
import DurableCalc.FileTree

namespace DurableCalc.CommandLine

structure Machine where
  tree : FileTree
  terminal : Terminal
  errors : String

namespace Machine

def takeLine (t : Terminal) : Except Failure ByteArray × Terminal :=
  match Terminal.takeLine [] t.input with
  | (.ok bs, rest) => (.ok bs.toByteArray, { t with input := rest })
  | (.error f, rest) => (.error f, { t with input := rest })

def host (cwd : List String) : Handler Host Machine
  | .files c, m =>
      let (r, tree) := FileTree.files cwd c m.tree
      (r, { m with tree })
  | .takeLine, m =>
      let (r, terminal) := takeLine m.terminal
      (r, { m with terminal })
  | .print bytes, m =>
      let (r, terminal) := m.terminal.write bytes
      (r, { m with terminal })
  | .complain text, m => ((), { m with errors := m.errors ++ text })

def nodeSize : Node → Nat
  | .file bytes => bytes.size
  | .directory => 0

def patience (m : Machine) : Nat :=
  m.tree.foldl (fun n e => n + nodeSize e.2) (m.terminal.patience + 1)

def run (env : Environment) (cwd : List String) (args : List String) (m : Machine) :
    Nat × Machine :=
  (CommandLine.run env args m.patience).run (host cwd) m

end Machine

end DurableCalc.CommandLine
