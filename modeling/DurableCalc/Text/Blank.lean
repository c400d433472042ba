import DurableCalc.Text.CodeRange

namespace DurableCalc.Text

def whiteSpace : List CodeRange :=
  [(0x09, 0x0d), (0x20, 0x20), (0x85, 0x85), (0xa0, 0xa0), (0x1680, 0x1680),
    (0x2000, 0x200a), (0x2028, 0x2029), (0x202f, 0x202f), (0x205f, 0x205f), (0x3000, 0x3000)]

def isBlankChar (c : Char) : Bool :=
  CodeRange.covers whiteSpace c

def isBlank (s : String) : Bool :=
  s.toList.all isBlankChar

def trimStart (cs : List Char) : List Char :=
  cs.dropWhile isBlankChar

def trimEnd (cs : List Char) : List Char :=
  (trimStart cs.reverse).reverse

def trimChars (cs : List Char) : List Char :=
  trimEnd (trimStart cs)

def trim (s : String) : String :=
  String.ofList (trimChars s.toList)

theorem trimStart_eq_nil_iff {cs : List Char} :
    trimStart cs = [] ↔ ∀ c ∈ cs, isBlankChar c = true := by
  induction cs with
  | nil => simp [trimStart]
  | cons c cs ih =>
      rw [List.forall_mem_cons, ← ih]
      cases hc : isBlankChar c <;> simp [trimStart, hc]

theorem trimStart_cons_of_not_blank {c : Char} (h : isBlankChar c = false) (cs : List Char) :
    trimStart (c :: cs) = c :: cs := by
  simp [trimStart, h]

theorem trimStart_append_of_blank {blanks : List Char} (h : ∀ c ∈ blanks, isBlankChar c = true)
    (cs : List Char) : trimStart (blanks ++ cs) = trimStart cs :=
  List.dropWhile_append_of_pos h

theorem trimEnd_append_of_blank {blanks : List Char} (h : ∀ c ∈ blanks, isBlankChar c = true)
    (cs : List Char) : trimEnd (cs ++ blanks) = trimEnd cs := by
  rw [trimEnd, List.reverse_append, trimStart_append_of_blank (by simpa using h), trimEnd]

theorem trimStart_eq_cons {c : Char} {cs ds : List Char} (h : trimStart cs = c :: ds) :
    isBlankChar c = false := by
  induction cs with
  | nil => simp [trimStart] at h
  | cons d cs ih =>
      cases hd : isBlankChar d with
      | true => exact ih (by simpa [trimStart, List.dropWhile_cons, hd] using h)
      | false =>
          rw [trimStart_cons_of_not_blank hd] at h
          exact (List.cons.inj h).1 ▸ hd

@[simp] theorem trimStart_trimStart (cs : List Char) :
    trimStart (trimStart cs) = trimStart cs := by
  cases h : trimStart cs with
  | nil => rfl
  | cons c ds => exact trimStart_cons_of_not_blank (trimStart_eq_cons h) ds

@[simp] theorem trimEnd_trimEnd (cs : List Char) : trimEnd (trimEnd cs) = trimEnd cs := by
  simp [trimEnd]

theorem trimStart_trimEnd {cs : List Char} (h : trimStart cs = cs) :
    trimStart (trimEnd cs) = trimEnd cs := by
  cases hd : trimEnd cs with
  | nil => rfl
  | cons c ds =>
      apply trimStart_cons_of_not_blank
      obtain ⟨es, he⟩ := List.dropWhile_suffix (l := cs.reverse) isBlankChar
      have hp : cs = trimEnd cs ++ es.reverse := by
        have := congrArg List.reverse he
        simpa [trimEnd, trimStart] using this.symm
      rw [hd, List.cons_append] at hp
      exact trimStart_eq_cons (h.trans hp)

@[simp] theorem trimChars_trimChars (cs : List Char) :
    trimChars (trimChars cs) = trimChars cs := by
  unfold trimChars
  rw [trimStart_trimEnd (trimStart_trimStart cs), trimEnd_trimEnd]

@[simp] theorem trim_trim (s : String) : trim (trim s) = trim s := by
  simp [trim]

theorem trimChars_eq_nil_iff {cs : List Char} :
    trimChars cs = [] ↔ ∀ c ∈ cs, isBlankChar c = true := by
  constructor
  · intro h
    cases hs : trimStart cs with
    | nil => exact trimStart_eq_nil_iff.mp hs
    | cons c ds =>
        have hr : trimStart (c :: ds).reverse = [] := by
          simpa [trimChars, trimEnd, hs] using h
        have hc := trimStart_eq_nil_iff.mp hr c (by simp)
        rw [trimStart_eq_cons hs] at hc
        exact absurd hc (by simp)
  · intro h
    rw [trimChars, trimStart_eq_nil_iff.mpr h]
    rfl

theorem trim_eq_empty_iff {s : String} : trim s = "" ↔ isBlank s = true := by
  simp [trim, isBlank, trimChars_eq_nil_iff]

end DurableCalc.Text
