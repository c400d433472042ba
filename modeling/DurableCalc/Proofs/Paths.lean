import DurableCalc.Files
import Mathlib.Data.List.Basic

namespace DurableCalc.Path

def Proper (n : String) : Prop :=
  n ≠ "" ∧ '/' ∉ n.toList

theorem slash_not_mem_namesFrom {before cs : List Char} (h : '/' ∉ before) :
    ∀ n ∈ namesFrom before cs, '/' ∉ n.toList := by
  have hread {ds : List Char} (hds : '/' ∉ ds) : '/' ∉ (String.ofList ds.reverse).toList := by
    rwa [String.toList_ofList, List.mem_reverse]
  induction cs generalizing before with
  | nil => exact List.forall_mem_singleton.mpr (hread h)
  | cons c cs ih =>
      rw [namesFrom]
      split
      · exact List.forall_mem_cons.mpr ⟨hread h, ih (List.not_mem_nil)⟩
      · next hc => exact ih (List.not_mem_cons_of_ne_of_not_mem (Ne.symm hc) h)

theorem mem_of_mem_namesFrom {before cs : List Char} {c : Char} :
    ∀ n ∈ namesFrom before cs, c ∈ n.toList → c ∈ before ∨ c ∈ cs := by
  have hread {ds : List Char} (hc : c ∈ (String.ofList ds.reverse).toList) : c ∈ ds := by
    rwa [String.toList_ofList, List.mem_reverse] at hc
  induction cs generalizing before with
  | nil =>
      intro n hn hc
      obtain rfl := List.mem_singleton.mp hn
      exact .inl (hread hc)
  | cons d cs ih =>
      rw [namesFrom]
      split
      · refine List.forall_mem_cons.mpr ⟨fun hc => .inl (hread hc), fun n hn hc => ?_⟩
        exact .inr (List.mem_cons_of_mem d ((ih n hn hc).resolve_left List.not_mem_nil))
      · intro n hn hc
        rcases ih n hn hc with hc | hc
        · rcases List.mem_cons.mp hc with rfl | hc
          · exact .inr List.mem_cons_self
          · exact .inl hc
        · exact .inr (List.mem_cons_of_mem d hc)

theorem proper_of_mem_names {path n : String} (h : n ∈ names path) : Proper n := by
  obtain ⟨hn, hne⟩ := List.mem_filter.mp h
  exact ⟨of_decide_eq_true hne, slash_not_mem_namesFrom List.not_mem_nil n hn⟩

theorem mem_toList_of_mem_names {path n : String} (h : n ∈ names path) {c : Char}
    (hc : c ∈ n.toList) : c ∈ path.toList :=
  (mem_of_mem_namesFrom n (List.mem_filter.mp h).1 hc).resolve_left List.not_mem_nil

theorem namesFrom_append {before cs : List Char} (h : '/' ∉ cs) (rest : List Char) :
    namesFrom before (cs ++ rest) = namesFrom (cs.reverse ++ before) rest := by
  induction cs generalizing before with
  | nil => rfl
  | cons c cs ih =>
      have hc : c ≠ '/' := (List.ne_of_not_mem_cons h).symm
      rw [List.cons_append, namesFrom, if_neg hc, ih (List.not_mem_of_not_mem_cons h), List.reverse_cons,
        List.append_assoc, List.singleton_append]

theorem namesFrom_intercalate {n : String} {ns : List String} (h : ∀ m ∈ n :: ns, Proper m) :
    namesFrom [] (List.intercalate ['/'] ((n :: ns).map String.toList)) = n :: ns := by
  induction ns generalizing n with
  | nil =>
      have hn := (h n List.mem_cons_self).2
      rw [List.map_singleton, List.intercalate_singleton, ← List.append_nil n.toList,
        namesFrom_append hn, namesFrom, List.append_nil, List.reverse_reverse, String.ofList_toList]
  | cons m ms ih =>
      obtain ⟨hn, hms⟩ := List.forall_mem_cons.mp h
      rw [List.map_cons, List.map_cons, List.intercalate_cons_cons, List.append_assoc,
        namesFrom_append hn.2, List.singleton_append, namesFrom, if_pos rfl, List.append_nil,
        List.reverse_reverse, String.ofList_toList]
      exact congrArg (n :: ·) (ih hms)

theorem toList_ofNames (absolute : Bool) (ns : List String) :
    (ofNames absolute ns).toList
      = (if absolute then ['/'] else []) ++ List.intercalate ['/'] (ns.map String.toList) := by
  cases absolute <;> simp [ofNames, String.toList_append, String.toList_intercalate]

theorem names_ofNames (absolute : Bool) {ns : List String} (h : ∀ n ∈ ns, Proper n) :
    names (ofNames absolute ns) = ns := by
  have hfilter : ns.filter (fun n => n ≠ "") = ns :=
    List.filter_eq_self.mpr fun n hn => decide_eq_true (h n hn).1
  cases ns with
  | nil => cases absolute <;> rfl
  | cons n ns =>
      rw [names, toList_ofNames]
      cases absolute with
      | false => rw [if_neg Bool.false_ne_true, List.nil_append, namesFrom_intercalate h, hfilter]
      | true =>
          have hempty : decide (String.ofList [].reverse ≠ "") = false := rfl
          rw [if_pos rfl, List.singleton_append, namesFrom, if_pos rfl, namesFrom_intercalate h,
            List.filter_cons, hempty, if_neg Bool.false_ne_true, hfilter]

theorem isAbsolute_ofNames (absolute : Bool) {ns : List String} (h : ∀ n ∈ ns, Proper n) :
    isAbsolute (ofNames absolute ns) = absolute := by
  rw [isAbsolute, toList_ofNames]
  cases absolute with
  | true => rfl
  | false =>
      cases ns with
      | nil => rfl
      | cons n ns =>
          obtain ⟨hne, hslash⟩ := h n List.mem_cons_self
          have hhead (cs : List Char) : (n.toList ++ cs).head? ≠ some '/' := by
            cases hn : n.toList with
            | nil => exact absurd (String.toList_eq_nil_iff.mp hn) hne
            | cons c ds =>
                rw [hn] at hslash
                exact fun hc => List.ne_of_not_mem_cons hslash (Option.some.inj hc).symm
          rw [if_neg Bool.false_ne_true, List.nil_append, decide_eq_false_iff_not]
          cases ns with
          | nil =>
              rw [List.map_singleton, List.intercalate_singleton, ← List.append_nil n.toList]
              exact hhead []
          | cons m ms =>
              rw [List.map_cons, List.map_cons, List.intercalate_cons_cons, List.append_assoc]
              exact hhead _

theorem ofNames_ne_empty {absolute : Bool} {ns : List String} (h : ∀ n ∈ ns, Proper n)
    (hne : absolute = true ∨ ns ≠ []) : ofNames absolute ns ≠ "" := by
  intro hempty
  have habsolute := isAbsolute_ofNames absolute h
  have hnames := names_ofNames absolute h
  rw [hempty] at habsolute hnames
  rcases hne with rfl | hne
  · cases habsolute
  · exact hne hnames.symm

theorem mem_toList_ofNames {absolute : Bool} {ns : List String} {c : Char}
    (h : c ∈ (ofNames absolute ns).toList) : c = '/' ∨ ∃ n ∈ ns, c ∈ n.toList := by
  rw [toList_ofNames, List.mem_append] at h
  rcases h with h | h
  · cases absolute with
    | true => exact .inl (List.mem_singleton.mp h)
    | false => cases h
  · induction ns with
    | nil => cases h
    | cons n ns ih =>
        cases ns with
        | nil =>
            rw [List.map_singleton, List.intercalate_singleton] at h
            exact .inr ⟨n, List.mem_cons_self, h⟩
        | cons m ms =>
            rw [List.map_cons, List.map_cons, List.intercalate_cons_cons, List.mem_append,
              List.mem_append, List.mem_singleton] at h
            rcases h with (h | h) | h
            · exact .inr ⟨n, List.mem_cons_self, h⟩
            · exact .inl h
            · rcases ih h with h | ⟨k, hk, h⟩
              · exact .inl h
              · exact .inr ⟨k, List.mem_cons_of_mem n hk, h⟩

theorem size_ofNames_concat (absolute : Bool) (ns : List String) (n : String) :
    (ofNames absolute ns).utf8ByteSize ≤ (ofNames absolute (ns ++ [n])).utf8ByteSize := by
  have hjoin : (String.intercalate "/" ns).utf8ByteSize
      ≤ (String.intercalate "/" (ns ++ [n])).utf8ByteSize := by
    induction ns with
    | nil => exact Nat.zero_le _
    | cons m ms ih =>
        cases ms with
        | nil =>
            rw [List.singleton_append, String.intercalate_cons_cons, String.intercalate_singleton,
              String.append_assoc, String.utf8ByteSize_append]
            exact Nat.le_add_right _ _
        | cons k ks =>
            simp only [List.cons_append, String.intercalate_cons_cons,
              String.utf8ByteSize_append] at ih ⊢
            exact Nat.add_le_add_left ih _
  rw [ofNames, ofNames, String.utf8ByteSize_append, String.utf8ByteSize_append]
  exact Nat.add_le_add_left hjoin _

theorem size_ofNames_take (absolute : Bool) (ns : List String) (k : Nat) :
    (ofNames absolute (ns.take k)).utf8ByteSize ≤ (ofNames absolute ns).utf8ByteSize := by
  have hstep (j : Nat) : (ofNames absolute (ns.take j)).utf8ByteSize
      ≤ (ofNames absolute (ns.take (j + 1))).utf8ByteSize := by
    rw [List.take_add_one]
    cases ns[j]? with
    | none => exact Nat.le_of_eq (by rw [Option.toList_none, List.append_nil])
    | some n => exact size_ofNames_concat absolute (ns.take j) n
  have hmore (j : Nat) : (ofNames absolute (ns.take k)).utf8ByteSize
      ≤ (ofNames absolute (ns.take (k + j))).utf8ByteSize := by
    induction j with
    | zero => exact Nat.le_refl _
    | succ j ih => exact Nat.le_trans ih (hstep (k + j))
  have hall := hmore ns.length
  rwa [List.take_of_length_le (Nat.le_add_left _ _)] at hall

def undotted (ns : List String) : List String :=
  ns.filter fun m => m ≠ "."

def Sparse (absolute : Bool) (ns : List String) : Prop :=
  (∀ m ∈ ns, m ≠ ".") ∨ absolute = false ∧ ∃ ms, ns = "." :: ms ∧ ∀ m ∈ ms, m ≠ "."

theorem Sparse.take {absolute : Bool} {ns : List String} (h : Sparse absolute ns) (k : Nat) :
    Sparse absolute (ns.take k) := by
  rcases h with h | ⟨habsolute, ms, rfl, h⟩
  · exact .inl fun m hm => h m (List.mem_of_mem_take hm)
  · cases k with
    | zero => exact .inl (List.forall_mem_nil _)
    | succ k => exact .inr ⟨habsolute, ms.take k, rfl, fun m hm => h m (List.mem_of_mem_take hm)⟩

theorem ne_dot_of_mem_undotted {ns : List String} : ∀ m ∈ undotted ns, m ≠ "." :=
  fun _ hm => of_decide_eq_true (List.mem_filter.mp hm).2

theorem undotted_eq_self {ns : List String} (h : ∀ m ∈ ns, m ≠ ".") : undotted ns = ns :=
  List.filter_eq_self.mpr fun m hm => decide_eq_true (h m hm)

theorem undotted_append (ms ns : List String) : undotted (ms ++ ns) = undotted ms ++ undotted ns :=
  List.filter_append ms ns

theorem significant_cases (path : String) :
    significant path = undotted (names path) ∨
    isAbsolute path = false ∧
      ∃ ns, names path = "." :: ns ∧ significant path = "." :: undotted ns := by
  rw [significant]
  cases hnames : names path with
  | nil => exact .inl rfl
  | cons n ns =>
      simp only
      split
      · exact .inl rfl
      · next hdot =>
          obtain ⟨hrelative, hn⟩ := not_or.mp hdot
          obtain rfl : n = "." := not_ne_iff.mp hn
          exact .inr ⟨Bool.eq_false_iff.mpr hrelative, ns, rfl, rfl⟩

theorem sparse_significant (path : String) : Sparse (isAbsolute path) (significant path) := by
  rcases significant_cases path with h | ⟨hrelative, ns, -, h⟩
  · rw [h]
    exact .inl ne_dot_of_mem_undotted
  · rw [h]
    exact .inr ⟨hrelative, undotted ns, rfl, ne_dot_of_mem_undotted⟩

theorem mem_names_of_mem_significant {path n : String} (h : n ∈ significant path) :
    n ∈ names path := by
  rcases significant_cases path with hs | ⟨-, ns, hnames, hs⟩
  · rw [hs] at h
    exact (List.mem_filter.mp h).1
  · rw [hs] at h
    rw [hnames]
    rcases List.mem_cons.mp h with rfl | h
    · exact List.mem_cons_self
    · exact List.mem_cons_of_mem "." (List.mem_filter.mp h).1

theorem significant_ofNames {absolute : Bool} {ns : List String} (h : ∀ n ∈ ns, Proper n)
    (hsparse : Sparse absolute ns) : significant (ofNames absolute ns) = ns := by
  have hnames := names_ofNames absolute h
  have habsolute := isAbsolute_ofNames absolute h
  rcases hsparse with hdots | ⟨rfl, ms, rfl, hdots⟩
  · rcases significant_cases (ofNames absolute ns) with hs | ⟨-, ms, hms, -⟩
    · rw [hs, hnames, undotted_eq_self hdots]
    · rw [hnames] at hms
      exact absurd rfl (hdots "." (by rw [hms]; exact List.mem_cons_self))
  · rw [significant, hnames, habsolute]
    exact congrArg ("." :: ·) (undotted_eq_self hdots)

theorem ancestors_ofNames {absolute : Bool} {ns : List String} (h : ∀ n ∈ ns, Proper n)
    (hsparse : Sparse absolute ns) :
    ancestors (ofNames absolute ns)
      = (List.range ns.length).reverse.map fun k => ofNames absolute (ns.take k) := by
  rw [ancestors, significant_ofNames h hsparse, isAbsolute_ofNames absolute h]

theorem undotted_significant (path : String) : undotted (significant path) = undotted (names path) := by
  rcases significant_cases path with h | ⟨-, ns, hnames, h⟩
  · rw [h]
    exact undotted_eq_self ne_dot_of_mem_undotted
  · rw [h, hnames]
    exact undotted_eq_self ne_dot_of_mem_undotted

structure Written (absolute : Bool) (ns : List String) : Prop where
  proper : ∀ n ∈ ns, Proper n
  sparse : Sparse absolute ns
  nonempty : absolute = true ∨ ns ≠ []

theorem directory_of_parent {path d : String} (h : parent? path = some d) :
    FileStore.directory path = if d = "" then "." else d := by
  rw [FileStore.directory, h]
  split <;> simp_all

theorem directory_eq (path : String) :
    ∃ absolute ns, FileStore.directory path = ofNames absolute ns ∧ Written absolute ns ∧
      (∀ n ∈ ns, n = "." ∨ n ∈ names path) ∧
      ∀ ms l, names path = ms ++ [l] → l ≠ "." →
        absolute = isAbsolute path ∧ undotted ns = undotted ms := by
  have hdot : Written false ["."] := by
    refine ⟨List.forall_mem_singleton.mpr ⟨by decide, by decide⟩, ?_, .inr (List.cons_ne_nil _ _)⟩
    exact .inr ⟨rfl, [], rfl, List.forall_mem_nil _⟩
  have hlast {ms : List String} {l : String} (hnames : names path = ms ++ [l]) (hl : l ≠ ".") :
      undotted (significant path) = undotted ms ++ [l] := by
    rw [undotted_significant, hnames, undotted_append,
      undotted_eq_self (List.forall_mem_singleton.mpr hl)]
  rcases List.eq_nil_or_concat (significant path) with hs | ⟨ns, x, hs⟩
  · have hparent : parent? path = none := by rw [parent?, hs]
    have hdirectory : FileStore.directory path = "." := by rw [FileStore.directory, hparent]
    refine ⟨false, ["."], hdirectory, hdot, List.forall_mem_singleton.mpr (.inl rfl), ?_⟩
    intro ms l hnames hl
    have hnone := hlast hnames hl
    rw [hs] at hnone
    exact absurd hnone.symm (List.append_ne_nil_of_right_ne_nil _ (List.cons_ne_nil _ _))
  · rw [List.concat_eq_append] at hs
    have hmem : ∀ n ∈ ns, n ∈ names path := fun n hn =>
      mem_names_of_mem_significant (hs ▸ List.mem_append_left _ hn)
    have hproper : ∀ n ∈ ns, Proper n := fun n hn => proper_of_mem_names (hmem n hn)
    have hparent : parent? path = some (ofNames (isAbsolute path) ns) := by
      rw [parent?, hs]
      cases ns with
      | nil => rfl
      | cons n ns =>
          have hdrop : (n :: ns ++ [x]).dropLast = n :: ns := List.dropLast_concat
          simp only [List.cons_append] at hdrop ⊢
          rw [hdrop]
    have hbefore {ms : List String} {l : String} (hnames : names path = ms ++ [l]) (hl : l ≠ ".") :
        undotted ns = undotted ms := by
      have hundotted := hlast hnames hl
      have hsparse := sparse_significant path
      rw [hs] at hundotted hsparse
      by_cases hx : x = "."
      · subst hx
        rcases hsparse with hdots | ⟨-, ks, hks, hdots⟩
        · exact absurd rfl (hdots "." (List.mem_append_right ns List.mem_cons_self))
        · rw [hks] at hundotted
          have hrest : undotted ("." :: ks) = ks := undotted_eq_self hdots
          rw [← hundotted.symm.trans hrest, ← List.cons_append] at hks
          exact absurd (List.cons.inj (List.append_inj' hks rfl).2).1.symm hl
      · rw [undotted_append, undotted_eq_self (List.forall_mem_singleton.mpr hx)] at hundotted
        exact (List.append_inj' hundotted rfl).1
    rw [directory_of_parent hparent]
    split
    · next hempty =>
        obtain ⟨hrelative, rfl⟩ : isAbsolute path = false ∧ ns = [] := by
          by_contra hne
          refine ofNames_ne_empty hproper ?_ hempty
          by_contra hnone
          rw [not_or, Bool.not_eq_true, not_ne_iff] at hnone
          exact hne hnone
        refine ⟨false, ["."], rfl, hdot, List.forall_mem_singleton.mpr (.inl rfl), ?_⟩
        exact fun ms l hnames hl => ⟨hrelative.symm, hbefore hnames hl⟩
    · next hne =>
        have hsparse := (sparse_significant path).take ns.length
        rw [hs, List.take_left] at hsparse
        refine ⟨isAbsolute path, ns, rfl, ⟨hproper, hsparse, ?_⟩, fun n hn => .inr (hmem n hn), ?_⟩
        · by_contra hnone
          rw [not_or, Bool.not_eq_true, not_ne_iff] at hnone
          rw [hnone.1, hnone.2] at hne
          exact hne rfl
        · exact fun ms l hnames hl => ⟨rfl, hbefore hnames hl⟩

end DurableCalc.Path
