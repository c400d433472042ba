namespace DurableCalc.Text

def chopReturn : List Char → List Char
  | [] => []
  | ['\r'] => []
  | c :: cs => c :: chopReturn cs

theorem chopReturn_append_return (cs : List Char) : chopReturn (cs ++ ['\r']) = cs := by
  induction cs with
  | nil => rfl
  | cons c cs ih =>
      cases cs with
      | nil => simp [chopReturn]
      | cons d ds =>
          rw [List.cons_append, chopReturn]
          · rw [ih]
          · simp

theorem chopReturn_append_of_ne {c : Char} (h : c ≠ '\r') (cs : List Char) :
    chopReturn (cs ++ [c]) = cs ++ [c] := by
  induction cs with
  | nil =>
      show chopReturn (c :: []) = c :: []
      rw [chopReturn]
      · rfl
      · intro e; exact absurd e h
  | cons d ds ih =>
      rw [List.cons_append, chopReturn]
      · rw [ih]
      · simp

def linesFrom (before : List Char) : List Char → List (List Char)
  | [] => if before = [] then [] else [before.reverse]
  | c :: cs =>
      if c = '\n' then chopReturn before.reverse :: linesFrom [] cs
      else linesFrom (c :: before) cs

theorem linesFrom_line {cs : List Char} (h : '\n' ∉ cs) (before rest : List Char) :
    linesFrom before (cs ++ '\n' :: rest)
      = chopReturn (before.reverse ++ cs) :: linesFrom [] rest := by
  induction cs generalizing before with
  | nil => simp [linesFrom]
  | cons c cs ih =>
      have hc : c ≠ '\n' := fun e => h (by simp [e])
      have hcs : '\n' ∉ cs := fun m => h (List.mem_cons_of_mem _ m)
      simp [linesFrom, hc, ih hcs (c :: before)]

theorem linesFrom_unterminated {cs : List Char} (h : '\n' ∉ cs) (before : List Char)
    (hne : before.reverse ++ cs ≠ []) : linesFrom before cs = [before.reverse ++ cs] := by
  induction cs generalizing before with
  | nil =>
      have : before ≠ [] := by simpa using hne
      simp [linesFrom, this]
  | cons c cs ih =>
      have hc : c ≠ '\n' := fun e => h (by simp [e])
      have hcs : '\n' ∉ cs := fun m => h (List.mem_cons_of_mem _ m)
      simp [linesFrom, hc, ih hcs (c :: before)]

def lines (s : String) : List String :=
  (linesFrom [] s.toList).map String.ofList

def unlines : List String → String
  | [] => ""
  | e :: es => e ++ ("\n" ++ unlines es)

end DurableCalc.Text
