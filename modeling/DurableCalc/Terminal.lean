import DurableCalc.Device

namespace DurableCalc

namespace Terminal

def dropEnds (line : String) : String :=
  String.ofList (line.toList.reverse.dropWhile fun c => c = '\n' || c = '\r').reverse

def decode (bytes : ByteArray) : Except Error String :=
  if bytes.isEmpty then .error .inputClosed
  else
    match String.fromUTF8? bytes with
    | some line => .ok (dropEnds line)
    | none => .error (.transport .invalidText)

def encode (line : String) : ByteArray :=
  (line ++ "\n").toUTF8

inductive Chunk where
  | bytes (bs : List UInt8)
  | failure (text : String)
  | interruption

def cut : List UInt8 → List UInt8 × Option (List UInt8)
  | [] => ([], none)
  | b :: bs => if b = 10 then ([b], some bs) else (b :: (cut bs).1, (cut bs).2)

theorem cut_append (bs : List UInt8) : (cut bs).1 ++ (cut bs).2.getD [] = bs := by
  induction bs with
  | nil => rfl
  | cons b bs ih =>
      unfold cut
      split
      · rfl
      · simp [ih]

def takeLine (taken : List UInt8) : List Chunk → Except Failure (List UInt8) × List Chunk
  | [] => (.ok taken, [])
  | .failure text :: rest => (.error (.other text), rest)
  | .interruption :: rest => takeLine taken rest
  | .bytes bs :: rest =>
      match cut bs with
      | (line, some after) => (.ok (taken ++ line), .bytes after :: rest)
      | (line, none) => takeLine (taken ++ line) rest

end Terminal

structure Terminal where
  input : List Terminal.Chunk
  output : ByteArray
  room : Option Nat
  flushes : Nat

namespace Terminal

def start (input : List Chunk) (room : Option Nat) : Terminal :=
  ⟨input, ByteArray.empty, room, 0⟩

def readLine (t : Terminal) : Except Error String × Terminal :=
  match takeLine [] t.input with
  | (.error f, rest) => (.error (.transport f), { t with input := rest })
  | (.ok bs, rest) => (decode bs.toByteArray, { t with input := rest })

def write (bytes : ByteArray) (t : Terminal) : Except Failure Unit × Terminal :=
  match t.room with
  | none => (.ok (), { t with output := t.output ++ bytes })
  | some n =>
      let t := { t with output := t.output ++ bytes.extract 0 n, room := some (n - bytes.size) }
      if bytes.size ≤ n then (.ok (), t) else (.error (.other "sink full"), t)

def flush (fails : Nat → Bool) (t : Terminal) : Except Failure Unit × Terminal :=
  let next := { t with flushes := t.flushes + 1 }
  if fails t.flushes then (.error (.other "flush failed"), next) else (.ok (), next)

def showLine (fails : Nat → Bool) (line : String) (t : Terminal) : Except Error Unit × Terminal :=
  match t.write (encode line) with
  | (.error f, t) => (.error (.transport f), t)
  | (.ok (), t) =>
      match t.flush fails with
      | (.error f, t) => (.error (.transport f), t)
      | (.ok (), t) => (.ok (), t)

def console (flushFails : Nat → Bool) : Console Terminal :=
  ⟨readLine, showLine flushFails⟩

def Chunk.size : Chunk → Nat
  | .bytes bs => bs.length
  | _ => 0

def patience (t : Terminal) : Nat :=
  t.input.foldl (fun n c => n + c.size) 1

end Terminal

end DurableCalc
