import DurableCalc.FileTree
import DurableCalc.Proofs.Paths
import Mathlib.Data.List.Nodup

namespace DurableCalc.FileTree

variable {t u : FileTree} {here p : List String} {ns : List String}

def origin (cwd : List String) (path : String) : List String :=
  if Path.isAbsolute path then [] else cwd

def Names (n : String) : Prop :=
  n ≠ "." ∧ n ≠ ".."

def Passes (t : FileTree) (here ns p : List String) : Prop :=
  ∃ ms n rest q, ns = ms ++ n :: rest ∧ Names n ∧ walk t here ms = .ok q ∧ p = q ++ [n]

theorem Passes.ne_nil (h : Passes t here ns p) : ns ≠ [] := by
  obtain ⟨ms, n, rest, -, rfl, -⟩ := h
  exact List.append_ne_nil_of_right_ne_nil ms (List.cons_ne_nil n rest)

theorem Passes.append (h : Passes t here ns p) (rest : List String) :
    Passes t here (ns ++ rest) p := by
  obtain ⟨ms, n, after, q, rfl, hn, hwalk, rfl⟩ := h
  exact ⟨ms, n, after ++ rest, q, List.append_assoc _ _ _, hn, hwalk, rfl⟩

inductive Step (t : FileTree) (here : List String) : String → Except Failure (List String) → Prop where
  | dot : Step t here "." (.ok here)
  | dots : Step t here ".." (.ok here.dropLast)
  | long {n : String} : Names n → nameLimit < n.utf8ByteSize → Step t here n (.error .nameTooLong)
  | missing {n : String} : Names n → n.utf8ByteSize ≤ nameLimit → get? t (here ++ [n]) = none →
      Step t here n (.error .notFound)
  | file {n : String} {bytes : ByteArray} : Names n → n.utf8ByteSize ≤ nameLimit →
      get? t (here ++ [n]) = some (.file bytes) → Step t here n (.error .notADirectory)
  | directory {n : String} : Names n → n.utf8ByteSize ≤ nameLimit →
      get? t (here ++ [n]) = some .directory → Step t here n (.ok (here ++ [n]))

theorem step (t : FileTree) (here : List String) (n : String) : Step t here n (walk t here [n]) := by
  rw [walk]
  split
  · next hdot =>
      subst hdot
      exact .dot
  · next hdot =>
      split
      · next hdots =>
          subst hdots
          exact .dots
      · next hdots =>
          split
          · next hlong => exact .long ⟨hdot, hdots⟩ hlong
          · next hshort =>
              cases hnode : get? t (here ++ [n]) with
              | none => exact .missing ⟨hdot, hdots⟩ (Nat.le_of_not_lt hshort) hnode
              | some node =>
                  cases node with
                  | file bytes => exact .file ⟨hdot, hdots⟩ (Nat.le_of_not_lt hshort) hnode
                  | directory => exact .directory ⟨hdot, hdots⟩ (Nat.le_of_not_lt hshort) hnode

theorem walk_cons (t : FileTree) (here : List String) (n : String) (ns : List String) :
    walk t here (n :: ns)
      = match walk t here [n] with
        | .ok p => walk t p ns
        | .error f => .error f := by
  rw [walk, walk]
  split
  · rfl
  · split
    · rfl
    · split
      · rfl
      · cases get? t (here ++ [n]) with
        | none => rfl
        | some node => cases node <;> rfl

theorem walk_append (t : FileTree) (here ms ns : List String) :
    walk t here (ms ++ ns)
      = match walk t here ms with
        | .ok p => walk t p ns
        | .error f => .error f := by
  induction ms generalizing here with
  | nil => rfl
  | cons m ms ih =>
      rw [List.cons_append, walk_cons, walk_cons t here m ms]
      cases walk t here [m] with
      | ok p => exact ih p
      | error f => rfl

theorem walk_undotted (t : FileTree) (here ns : List String) :
    walk t here (Path.undotted ns) = walk t here ns := by
  induction ns generalizing here with
  | nil => rfl
  | cons n ns ih =>
      by_cases hn : n = "."
      · subst hn
        exact ih here
      · have hkeep : Path.undotted (n :: ns) = n :: Path.undotted ns :=
          List.filter_cons_of_pos (decide_eq_true hn)
        rw [hkeep, walk_cons, walk_cons t here n ns]
        cases walk t here [n] with
        | ok p => exact ih p
        | error f => rfl

theorem walk_cons_ok {n : String} (h : walk t here (n :: ns) = .ok p) :
    ∃ q, walk t here [n] = .ok q ∧ walk t q ns = .ok p := by
  rw [walk_cons] at h
  cases hstep : walk t here [n] with
  | ok q =>
      rw [hstep] at h
      exact ⟨q, rfl, h⟩
  | error f =>
      rw [hstep] at h
      cases h

def Holds (t u : FileTree) : Prop :=
  ∀ p, get? t p = some .directory → get? u p = some .directory

theorem Holds.step (h : Holds t u) {n : String} (hstep : FileTree.walk t here [n] = .ok p) :
    FileTree.walk u here [n] = .ok p := by
  have hcase := FileTree.step t here n
  rw [hstep] at hcase
  cases hcase with
  | dot => rfl
  | dots => rfl
  | directory hn hsize hnode =>
      rw [FileTree.walk, if_neg hn.1, if_neg hn.2, if_neg (Nat.not_lt.mpr hsize), h _ hnode,
        FileTree.walk]

theorem Holds.walk (h : Holds t u) (hwalk : walk t here ns = .ok p) : walk u here ns = .ok p := by
  induction ns generalizing here with
  | nil => exact hwalk
  | cons n ns ih =>
      obtain ⟨q, hstep, hrest⟩ := walk_cons_ok hwalk
      rw [walk_cons, h.step hstep]
      exact ih hrest

theorem Holds.passes (h : Holds t u) (hp : Passes t here ns p) : Passes u here ns p := by
  obtain ⟨ms, n, rest, q, hns, hn, hwalk, hp⟩ := hp
  exact ⟨ms, n, rest, q, hns, hn, h.walk hwalk, hp⟩

theorem walk_error {f : Failure} (h : walk t here ns = .error f) :
    f = .notFound ∨ ∃ p n, Passes t here ns (p ++ [n]) ∧
      (nameLimit < n.utf8ByteSize ∨ ∃ bytes, get? t (p ++ [n]) = some (.file bytes)) := by
  induction ns generalizing here with
  | nil => cases h
  | cons n ns ih =>
      have hfirst (hn : Names n) : Passes t here (n :: ns) (here ++ [n]) :=
        ⟨[], n, ns, here, rfl, hn, rfl, rfl⟩
      have hcase := step t here n
      rw [walk_cons] at h
      cases hstep : walk t here [n] with
      | error e =>
          rw [hstep] at h hcase
          obtain rfl := Except.error.inj h
          cases hcase with
          | long hn hlong => exact .inr ⟨here, n, hfirst hn, .inl hlong⟩
          | missing => exact .inl rfl
          | file hn _ hnode => exact .inr ⟨here, n, hfirst hn, .inr ⟨_, hnode⟩⟩
      | ok q =>
          rw [hstep] at h
          rcases ih h with hf | ⟨p, m, hpasses, hobstacle⟩
          · exact .inl hf
          · obtain ⟨ms, k, rest, q', rfl, hk, hwalk, hp⟩ := hpasses
            refine .inr ⟨p, m, ⟨n :: ms, k, rest, q', rfl, hk, ?_, hp⟩, hobstacle⟩
            rw [walk_cons, hstep]
            exact hwalk

theorem walk_stopped {q : List String} {n : String} (h : Passes t here ns (q ++ [n]))
    (hobstacle : nameLimit < n.utf8ByteSize ∨ ∃ bytes, get? t (q ++ [n]) = some (.file bytes)) :
    ∃ f, walk t here ns = .error f ∧ f ≠ .notFound := by
  obtain ⟨ms, m, rest, q', rfl, hn, hwalk, hq⟩ := h
  obtain ⟨rfl, hm⟩ := List.append_inj' hq rfl
  obtain rfl : n = m := (List.cons.inj hm).1
  rw [walk_append, hwalk]
  simp only
  rw [walk_cons]
  have hcase := step t q n
  cases hstep : walk t q [n] with
  | error f =>
      rw [hstep] at hcase
      refine ⟨f, rfl, ?_⟩
      cases hcase with
      | long => nofun
      | missing _ hsize hnode =>
          rcases hobstacle with hlong | ⟨bytes, hfile⟩
          · exact absurd hlong (Nat.not_lt.mpr hsize)
          · rw [hnode] at hfile
            cases hfile
      | file => nofun
  | ok p =>
      rw [hstep] at hcase
      cases hcase with
      | dot => exact absurd rfl hn.1
      | dots => exact absurd rfl hn.2
      | directory _ hsize hnode =>
          rcases hobstacle with hlong | ⟨bytes, hfile⟩
          · exact absurd hlong (Nat.not_lt.mpr hsize)
          · rw [hnode] at hfile
            cases hfile

def next (here : List String) (n : String) : List String :=
  if n = "." then here else if n = ".." then here.dropLast else here ++ [n]

def lead (here ns : List String) : List String :=
  ns.foldl next here

def Clear (t : FileTree) : List String → List String → Prop
  | _, [] => True
  | here, n :: ns =>
      (Names n → n.utf8ByteSize ≤ nameLimit ∧ ∀ bytes, get? t (here ++ [n]) ≠ some (.file bytes)) ∧
        Clear t (next here n) ns

theorem next_of_names {n : String} (hn : Names n) (here : List String) :
    next here n = here ++ [n] := by
  rw [next, if_neg hn.1, if_neg hn.2]

theorem next_of_step {n : String} (h : walk t here [n] = .ok p) : p = next here n := by
  have hcase := step t here n
  rw [h] at hcase
  cases hcase with
  | dot => rfl
  | dots => rfl
  | directory hn => exact (next_of_names hn here).symm

theorem lead_of_walk (h : walk t here ns = .ok p) : p = lead here ns := by
  induction ns generalizing here with
  | nil => exact (Except.ok.inj h).symm
  | cons n ns ih =>
      obtain ⟨q, hstep, hrest⟩ := walk_cons_ok h
      obtain rfl := next_of_step hstep
      exact ih hrest

theorem clear_append (t : FileTree) (here ms ns : List String) :
    Clear t here (ms ++ ns) ↔ Clear t here ms ∧ Clear t (lead here ms) ns := by
  induction ms generalizing here with
  | nil => exact (iff_of_eq (true_and _)).symm
  | cons m ms ih =>
      rw [List.cons_append, Clear, Clear, ih, and_assoc]
      rfl

theorem Clear.mono (h : Clear t here ns)
    (hfiles : ∀ p bytes, get? u p = some (.file bytes) → get? t p = some (.file bytes)) :
    Clear u here ns := by
  induction ns generalizing here with
  | nil => trivial
  | cons n ns ih =>
      refine ⟨fun hn => ?_, ih h.2⟩
      obtain ⟨hshort, hfile⟩ := h.1 hn
      exact ⟨hshort, fun bytes hbytes => hfile bytes (hfiles _ bytes hbytes)⟩

theorem clear_of_walk (h : walk t here ns = .ok p) : Clear t here ns := by
  induction ns generalizing here with
  | nil => trivial
  | cons n ns ih =>
      obtain ⟨q, hstep, hrest⟩ := walk_cons_ok h
      refine ⟨fun hn => ?_, ?_⟩
      · have hcase := step t here n
        rw [hstep] at hcase
        cases hcase with
        | dot => exact absurd rfl hn.1
        | dots => exact absurd rfl hn.2
        | directory _ hshort hnode =>
            refine ⟨hshort, fun bytes hbytes => ?_⟩
            rw [hnode] at hbytes
            cases hbytes
      · rw [← next_of_step hstep]
        exact ih hrest

def Crosses (here ns p : List String) : Prop :=
  ∃ ms n rest, ns = ms ++ n :: rest ∧ Names n ∧ p = lead here ms ++ [n]

theorem Passes.crosses (h : Passes t here ns p) : Crosses here ns p := by
  obtain ⟨ms, n, rest, q, hns, hn, hwalk, rfl⟩ := h
  exact ⟨ms, n, rest, hns, hn, by rw [lead_of_walk hwalk]⟩

theorem Crosses.directory {q : List String} (h : Crosses here ns p) (hwalk : walk t here ns = .ok q) :
    get? t p = some .directory := by
  obtain ⟨ms, n, rest, rfl, hn, rfl⟩ := h
  rw [walk_append] at hwalk
  cases hms : FileTree.walk t here ms with
  | error f =>
      rw [hms] at hwalk
      cases hwalk
  | ok k =>
      rw [hms] at hwalk
      obtain ⟨k', hstep, -⟩ := walk_cons_ok hwalk
      have hcase := step t k n
      rw [hstep] at hcase
      rw [← lead_of_walk hms]
      cases hcase with
      | dot => exact absurd rfl hn.1
      | dots => exact absurd rfl hn.2
      | directory _ _ hnode => exact hnode

theorem Clear.walk (h : Clear t here ns) :
    walk t here ns = .ok (lead here ns) ∨ walk t here ns = .error .notFound := by
  induction ns generalizing here with
  | nil => exact .inl rfl
  | cons n ns ih =>
      rw [walk_cons]
      have hcase := step t here n
      cases hstep : FileTree.walk t here [n] with
      | ok q =>
          obtain rfl := next_of_step hstep
          exact ih h.2
      | error f =>
          rw [hstep] at hcase
          cases hcase with
          | long hn hlong => exact absurd hlong (Nat.not_lt.mpr (h.1 hn).1)
          | missing => exact .inr rfl
          | file hn _ hnode => exact absurd hnode ((h.1 hn).2 _)

def endsInSlash (path : String) : Bool :=
  decide (path.toList.getLast? = some '/')

variable {cwd ms : List String} {path l : String}

theorem ne_empty_of_names (hnames : Path.names path = ms ++ [l]) : path ≠ "" := by
  rintro rfl
  exact absurd hnames.symm (List.append_ne_nil_of_right_ne_nil ms (List.cons_ne_nil l []))

theorem locate_concat (t : FileTree) (cwd : List String) (hnames : Path.names path = ms ++ [l])
    (hsize : path.utf8ByteSize ≤ pathLimit) :
    locate t cwd path
      = match walk t (origin cwd path) ms with
        | .error f => .error f
        | .ok here =>
            if l = "." ∨ l = ".." then .ok .dots
            else if nameLimit < l.utf8ByteSize then .error .nameTooLong
            else .ok (.entry (here ++ [l]) (endsInSlash path)) := by
  simp only [locate, if_neg (ne_empty_of_names hnames), if_neg (Nat.not_lt.mpr hsize), hnames,
    List.getLast?_concat, List.dropLast_concat]
  rfl

theorem locate_entry {here : List String} (hnames : Path.names path = ms ++ [l])
    (hsize : path.utf8ByteSize ≤ pathLimit) (hl : Names l) (hshort : l.utf8ByteSize ≤ nameLimit)
    (hwalk : walk t (origin cwd path) ms = .ok here) :
    locate t cwd path = .ok (.entry (here ++ [l]) (endsInSlash path)) := by
  have hdots : ¬ (l = "." ∨ l = "..") := not_or.mpr hl
  simp only [locate_concat t cwd hnames hsize, hwalk, if_neg hdots, if_neg (Nat.not_lt.mpr hshort)]

theorem locate_nil (t : FileTree) (cwd : List String) (hnames : Path.names path = [])
    (hne : path ≠ "") (hsize : path.utf8ByteSize ≤ pathLimit) : locate t cwd path = .ok .dots := by
  simp only [locate, if_neg hne, if_neg (Nat.not_lt.mpr hsize), hnames, List.getLast?_nil]

theorem locate_long (t : FileTree) (cwd : List String) (hsize : pathLimit < path.utf8ByteSize) :
    locate t cwd path = .error .nameTooLong := by
  have hne : path ≠ "" := by
    rintro rfl
    cases hsize
  rw [locate, if_neg hne, if_pos hsize]

theorem locate_entry_cases {q : List String} {slash : Bool}
    (h : locate t cwd path = .ok (.entry q slash)) :
    ∃ ms l here, Path.names path = ms ++ [l] ∧ path.utf8ByteSize ≤ pathLimit ∧ Names l ∧
      l.utf8ByteSize ≤ nameLimit ∧ walk t (origin cwd path) ms = .ok here ∧ q = here ++ [l] ∧
      slash = endsInSlash path := by
  by_cases hsize : pathLimit < path.utf8ByteSize
  · rw [locate_long t cwd hsize] at h
    cases h
  have hsize := Nat.le_of_not_lt hsize
  rcases List.eq_nil_or_concat (Path.names path) with hnames | ⟨ms, l, hnames⟩
  · by_cases hne : path = ""
    · subst hne
      cases h
    · rw [locate_nil t cwd hnames hne hsize] at h
      cases h
  · rw [List.concat_eq_append] at hnames
    rw [locate_concat t cwd hnames hsize] at h
    cases hwalk : walk t (origin cwd path) ms with
    | error f =>
        rw [hwalk] at h
        cases h
    | ok here =>
        simp only [hwalk] at h
        split at h
        · cases h
        · next hdots =>
            split at h
            · cases h
            · next hshort =>
                obtain ⟨rfl, rfl⟩ := Place.entry.inj (Except.ok.inj h)
                exact ⟨ms, l, here, hnames, hsize, not_or.mp hdots, Nat.le_of_not_lt hshort, hwalk,
                  rfl, rfl⟩

theorem Holds.locate {q : List String} {slash : Bool} (h : Holds t u)
    (hlocate : locate t cwd path = .ok (.entry q slash)) :
    FileTree.locate u cwd path = .ok (.entry q slash) := by
  obtain ⟨ms, l, here, hnames, hsize, hl, hshort, hwalk, rfl, rfl⟩ := locate_entry_cases hlocate
  exact locate_entry hnames hsize hl hshort (h.walk hwalk)

theorem holdsDirectory_iff (t : FileTree) (p : List String) :
    holdsDirectory t p = true ↔ get? t p = some .directory := by
  rw [holdsDirectory]
  split
  · next h => exact iff_of_true rfl h
  · next h => exact iff_of_false Bool.false_ne_true h

theorem get?_erase_self (t : FileTree) (hp : p ≠ []) : get? (erase t p) p = none := by
  have hgone : (erase t p).find? (fun e => e.1 = p) = none := by
    simp [erase, List.find?_eq_none]
  rw [get?, if_neg hp, hgone]
  rfl

def trial (n : Nat) : String :=
  ".tmp" ++ Numeral.write n

theorem trial_inj {m n : Nat} (h : trial m = trial n) : m = n := by
  have hlist := congrArg String.toList h
  rw [trial, trial, String.toList_append, String.toList_append] at hlist
  have hdigits : Numeral.writeChars m = Numeral.writeChars n := by
    have hwrite := List.append_cancel_left hlist
    rwa [Numeral.write, Numeral.write, String.toList_ofList, String.toList_ofList] at hwrite
  have hread := congrArg Numeral.integer hdigits
  rw [Numeral.integer_writeChars, Numeral.integer_writeChars] at hread
  exact Int.ofNat.inj (Option.some.inj hread)

theorem get?_ne_none_of_freshName {tries n : Nat}
    (h : get? t (here ++ [freshName t here tries n]) ≠ none) :
    ∀ k ≤ tries, get? t (here ++ [trial (n + k)]) ≠ none := by
  induction tries generalizing n with
  | zero =>
      intro k hk
      obtain rfl := Nat.le_zero.mp hk
      exact h
  | succ tries ih =>
      rw [freshName] at h
      split at h
      · next hfree => exact absurd hfree h
      · next htaken =>
          intro k hk
          cases k with
          | zero => exact htaken
          | succ k =>
              have hrest := ih h k (Nat.le_of_succ_le_succ hk)
              rwa [Nat.add_assoc, Nat.add_comm 1 k] at hrest

theorem get?_freshName (t : FileTree) (here : List String) :
    get? t (here ++ [freshName t here t.length 0]) = none := by
  by_contra h
  have htaken := get?_ne_none_of_freshName h
  have hmem (k : Nat) (hk : k ≤ t.length) : here ++ [trial k] ∈ t.map Prod.fst := by
    have hk := htaken k hk
    rw [Nat.zero_add, get?, if_neg (List.append_ne_nil_of_right_ne_nil _ (List.cons_ne_nil _ _)),
      ne_eq, Option.map_eq_none_iff] at hk
    obtain ⟨e, hfound⟩ := Option.ne_none_iff_exists'.mp hk
    have hplace := List.find?_some hfound
    exact List.mem_map.mpr ⟨e, List.mem_of_find?_eq_some hfound, of_decide_eq_true hplace⟩
  have hnodup : ((List.range (t.length + 1)).map fun k => here ++ [trial k]).Nodup := by
    refine List.Nodup.map (fun j k hjk => ?_) List.nodup_range
    exact trial_inj (List.cons.inj (List.append_inj' hjk rfl).2).1
  have hsubset : (List.range (t.length + 1)).map (fun k => here ++ [trial k]) ⊆ t.map Prod.fst := by
    intro q hq
    obtain ⟨k, hk, rfl⟩ := List.mem_map.mp hq
    exact hmem k (Nat.le_of_lt_succ (List.mem_range.mp hk))
  have hlength := hnodup.length_le_of_subset hsubset
  rw [List.length_map, List.length_range, List.length_map] at hlength
  exact Nat.not_succ_le_self _ hlength

def Grown (here ns : List String) (t u : FileTree) : Prop :=
  ∀ p, get? u p = get? t p ∨ get? t p = none ∧ get? u p = some .directory ∧ Passes u here ns p

namespace Grown

theorem refl (here ns : List String) (t : FileTree) : Grown here ns t t :=
  fun _ => .inl rfl

theorem holds (h : Grown here ns t u) : Holds t u := by
  intro p hp
  rcases h p with hsame | ⟨hnone, -, -⟩
  · rw [hsame, hp]
  · rw [hnone] at hp
    cases hp

theorem file_iff (h : Grown here ns t u) (p : List String) (bytes : ByteArray) :
    get? u p = some (.file bytes) ↔ get? t p = some (.file bytes) := by
  rcases h p with hsame | ⟨hnone, hdirectory, -⟩
  · rw [hsame]
  · rw [hnone, hdirectory]
    exact ⟨nofun, nofun⟩

theorem trans {v : FileTree} (h : Grown here ns t u) (h' : Grown here ns u v) :
    Grown here ns t v := by
  intro p
  rcases h p with hsame | ⟨hnone, hdirectory, hpasses⟩
  · rw [← hsame]
    exact h' p
  · exact .inr ⟨hnone, h'.holds p hdirectory, h'.holds.passes hpasses⟩

end Grown

end DurableCalc.FileTree
