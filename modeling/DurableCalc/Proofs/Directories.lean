import DurableCalc.Proofs.Places

namespace DurableCalc

open FileTree (Clear Grown Holds Names get? lead locate next origin put walk)

variable {disk : Disk} {t u : FileTree} {cwd ns : List String} {d : String}

namespace FileTree

theorem holds_put {p : List String} (h : get? t p = none) (n : Node) : Holds t (put t p n) := by
  intro q hq
  have hne : q ≠ p := by
    rintro rfl
    rw [h] at hq
    cases hq
  rw [get?_put_of_ne t n hne, hq]

theorem grown_makeDirectory (t : FileTree) (cwd : List String) {rest : List String}
    (hns : ns = Path.names d ++ rest) : Grown (origin cwd d) ns t (makeDirectory cwd d t).2 := by
  rw [makeDirectory]
  cases hlocate : locate t cwd d with
  | error f => exact .refl _ _ t
  | ok place =>
      cases place with
      | dots => exact .refl _ _ t
      | entry p slash =>
          simp only
          cases hnode : get? t p with
          | some node => exact .refl _ _ t
          | none =>
              obtain ⟨ms, l, here, hnames, -, hl, -, hwalk, rfl, -⟩ := locate_entry_cases hlocate
              intro q
              by_cases hq : q = here ++ [l]
              · subst hq
                refine .inr ⟨hnode, get?_put_self t _ ?_, ms, l, rest, here, ?_, hl, ?_, rfl⟩
                · exact List.append_ne_nil_of_right_ne_nil _ (List.cons_ne_nil _ _)
                · rw [hns, hnames, List.append_assoc, List.singleton_append]
                · exact (holds_put hnode .directory).walk hwalk
              · exact .inl (get?_put_of_ne t _ hq)

end FileTree

namespace Files

theorem run_makeDirectory (d : String) (t : FileTree) :
    (makeDirectory d).run (disk.files cwd) t
      = if Path.holdsNull d then (.error .nullInName, t) else FileTree.makeDirectory cwd d t := by
  rw [makeDirectory]
  split <;> rfl

theorem run_isDirectory (d : String) (t : FileTree) :
    (isDirectory d).run (disk.files cwd) t
      = (!Path.holdsNull d && FileTree.isDirectory cwd d t, t) := by
  rw [isDirectory]
  split
  · next hnull =>
      rw [hnull]
      rfl
  · next hnull =>
      rw [Bool.eq_false_iff.mpr hnull]
      rfl

theorem run_ensureDirectory (d : String) (t : FileTree) :
    (ensureDirectory d).run (disk.files cwd) t
      = match (makeDirectory d).run (disk.files cwd) t with
        | (.ok (), u) => (.ok (), u)
        | (.error f, u) =>
            if (!Path.holdsNull d && FileTree.isDirectory cwd d u) = true then (.ok (), u)
            else (.error f, u) := by
  rw [ensureDirectory, Program.run_bind]
  obtain ⟨result, u⟩ := (makeDirectory d).run (disk.files cwd) t
  cases result with
  | ok _ => rfl
  | error f =>
      simp only
      rw [Program.run_bind, run_isDirectory]
      split <;> rfl

theorem run_makeWithin_ensured (hne : d ≠ "") (up : String) (above : List String)
    (h : ((makeDirectory d).run (disk.files cwd) t).1 ≠ .error .notFound) :
    (makeWithin d (up :: above)).run (disk.files cwd) t
      = (ensureDirectory d).run (disk.files cwd) t := by
  rw [makeWithin, if_neg hne, run_ensureDirectory, Program.run_bind]
  generalize (makeDirectory d).run (disk.files cwd) t = x at h ⊢
  obtain ⟨result, u⟩ := x
  cases result with
  | ok _ => rfl
  | error f =>
      cases f with
      | notFound => exact absurd rfl h
      | _ =>
          simp only
          rw [Program.run_bind, run_isDirectory]
          split <;> rfl

theorem run_makeWithin_missing (hne : d ≠ "") (up : String) (above : List String)
    (h : (makeDirectory d).run (disk.files cwd) t = (.error .notFound, u)) :
    (makeWithin d (up :: above)).run (disk.files cwd) t
      = match (makeWithin up above).run (disk.files cwd) u with
        | (.ok (), v) => (ensureDirectory d).run (disk.files cwd) v
        | (.error f, v) => (.error f, v) := by
  rw [makeWithin, if_neg hne, Program.run_bind, h]
  simp only
  rw [Program.run_bind]
  obtain ⟨result, v⟩ := (makeWithin up above).run (disk.files cwd) u
  cases result <;> rfl

variable {here : List String}

def Keeps (disk : Disk) (cwd here ns : List String) (d : String) : Prop :=
  ∀ t, Grown here ns t ((makeDirectory d).run (disk.files cwd) t).2

theorem Keeps.ensure (h : Keeps disk cwd here ns d) (t : FileTree) :
    Grown here ns t ((ensureDirectory d).run (disk.files cwd) t).2 := by
  have hmake := h t
  rw [run_ensureDirectory]
  generalize (makeDirectory d).run (disk.files cwd) t = x at hmake ⊢
  obtain ⟨result, u⟩ := x
  cases result with
  | ok _ => exact hmake
  | error f =>
      simp only
      split <;> exact hmake

theorem grown_makeWithin {above : List String} (h : ∀ e ∈ d :: above, Keeps disk cwd here ns e)
    (t : FileTree) : Grown here ns t ((makeWithin d above).run (disk.files cwd) t).2 := by
  induction above generalizing d t with
  | nil => exact (h d List.mem_cons_self).ensure t
  | cons up above ih =>
      obtain ⟨hd, habove⟩ := List.forall_mem_cons.mp h
      by_cases hne : d = ""
      · rw [makeWithin, if_pos hne]
        exact .refl _ _ t
      by_cases hmissing : ((makeDirectory d).run (disk.files cwd) t).1 = .error .notFound
      · rw [run_makeWithin_missing hne up above (Prod.ext hmissing rfl)]
        have hmake := hd t
        have hup := ih habove ((makeDirectory d).run (disk.files cwd) t).2
        generalize (makeWithin up above).run (disk.files cwd)
          ((makeDirectory d).run (disk.files cwd) t).2 = x at hup ⊢
        obtain ⟨result, v⟩ := x
        cases result with
        | ok _ => exact (hmake.trans hup).trans (hd.ensure v)
        | error f => exact hmake.trans hup
      · rw [run_makeWithin_ensured hne up above hmissing]
        exact hd.ensure t

theorem keeps_take (disk : Disk) (cwd : List String) {absolute : Bool}
    (hns : Path.Written absolute ns) (k : Nat) :
    Keeps disk cwd (if absolute then [] else cwd) ns (Path.ofNames absolute (ns.take k)) := by
  intro t
  have hproper : ∀ n ∈ ns.take k, Path.Proper n := fun n hn => hns.proper n (List.mem_of_mem_take hn)
  have horigin : origin cwd (Path.ofNames absolute (ns.take k)) = if absolute then [] else cwd := by
    rw [origin, Path.isAbsolute_ofNames absolute hproper]
  rw [run_makeDirectory, ← horigin]
  by_cases hnull : Path.holdsNull (Path.ofNames absolute (ns.take k)) = true
  · rw [if_pos hnull]
    exact .refl _ _ t
  · rw [if_neg hnull]
    have hns : ns = Path.names (Path.ofNames absolute (ns.take k)) ++ ns.drop k := by
      rw [Path.names_ofNames absolute hproper, List.take_append_drop]
    exact FileTree.grown_makeDirectory t cwd hns

theorem grown_makeDirectories (disk : Disk) {absolute : Bool} (hns : Path.Written absolute ns)
    (t : FileTree) :
    Grown (if absolute then [] else cwd) ns t
      ((makeDirectories (Path.ofNames absolute ns)).run (disk.files cwd) t).2 := by
  rw [makeDirectories, if_neg (Path.ofNames_ne_empty hns.proper hns.nonempty),
    Path.ancestors_ofNames hns.proper hns.sparse]
  refine grown_makeWithin (List.forall_mem_cons.mpr ⟨?_, fun e he => ?_⟩) t
  · have hall := keeps_take disk cwd hns ns.length
    rwa [List.take_length] at hall
  · obtain ⟨k, -, rfl⟩ := List.mem_map.mp he
    exact keeps_take disk cwd hns k

structure Usable (cwd o : List String) (d : String) (ns : List String) : Prop where
  null : Path.holdsNull d = false
  size : d.utf8ByteSize ≤ FileTree.pathLimit
  names : Path.names d = ns
  origin : origin cwd d = o

variable {o ms : List String} {l : String}

theorem Usable.ne_empty (hd : Usable cwd o d (ms ++ [l])) : d ≠ "" :=
  FileTree.ne_empty_of_names hd.names

theorem makeDirectory_clear (hd : Usable cwd o d (ms ++ [l])) (hwalk : walk t o ms = .ok here)
    (hclear : Clear t o (ms ++ [l])) :
    (∃ u, FileTree.makeDirectory cwd d t = (.ok (), u) ∧ walk u o (ms ++ [l]) = .ok (next here l)) ∨
    FileTree.makeDirectory cwd d t = (.error .alreadyExists, t) ∧
      FileTree.isDirectory cwd d t = true ∧ walk t o (ms ++ [l]) = .ok (next here l) := by
  have hlast := ((FileTree.clear_append t o ms [l]).mp hclear).2
  rw [← FileTree.lead_of_walk hwalk] at hlast
  have hlocate := FileTree.locate_concat t cwd hd.names hd.size
  rw [hd.origin, hwalk] at hlocate
  simp only at hlocate
  rw [FileTree.makeDirectory, FileTree.isDirectory, FileTree.walk_append, hwalk]
  by_cases hl : l = "." ∨ l = ".."
  · rw [if_pos hl] at hlocate
    rw [hlocate]
    refine .inr ⟨rfl, rfl, ?_⟩
    rcases hl with rfl | rfl <;> rfl
  · have hl' : Names l := not_or.mp hl
    obtain ⟨hshort, hfile⟩ := hlast.1 hl'
    rw [if_neg hl, if_neg (Nat.not_lt.mpr hshort)] at hlocate
    rw [hlocate, FileTree.next_of_names hl']
    simp only
    have hstep {u : FileTree} (hnode : get? u (here ++ [l]) = some .directory) :
        walk u here [l] = .ok (here ++ [l]) := by
      rw [walk, if_neg hl'.1, if_neg hl'.2, if_neg (Nat.not_lt.mpr hshort), hnode]
      rfl
    cases hnode : get? t (here ++ [l]) with
    | none =>
        refine .inl ⟨_, rfl, ?_⟩
        rw [FileTree.walk_append, (FileTree.holds_put hnode .directory).walk hwalk]
        refine hstep (FileTree.get?_put_self t _ ?_)
        exact List.append_ne_nil_of_right_ne_nil _ (List.cons_ne_nil _ _)
    | some node =>
        cases node with
        | file bytes => exact absurd hnode (hfile bytes)
        | directory =>
            exact .inr ⟨rfl, (FileTree.holdsDirectory_iff t _).mpr hnode, hstep hnode⟩

theorem run_ensureDirectory_clear (disk : Disk) (hd : Usable cwd o d (ms ++ [l]))
    (hwalk : walk t o ms = .ok here) (hclear : Clear t o (ms ++ [l])) :
    ((makeDirectory d).run (disk.files cwd) t).1 ≠ .error .notFound ∧
    ∃ u, (ensureDirectory d).run (disk.files cwd) t = (.ok (), u) ∧
      walk u o (ms ++ [l]) = .ok (next here l) := by
  rw [run_ensureDirectory, run_makeDirectory, hd.null, if_neg Bool.false_ne_true]
  rcases makeDirectory_clear hd hwalk hclear with
    ⟨u, hmake, hthere⟩ | ⟨hmake, hdirectory, hthere⟩
  · rw [hmake]
    exact ⟨nofun, u, rfl, hthere⟩
  · rw [hmake]
    refine ⟨nofun, t, ?_, hthere⟩
    simp only [hdirectory, Bool.not_false, Bool.and_self, if_true]

theorem run_makeDirectory_missing (hd : Usable cwd o d (ms ++ [l]))
    (hwalk : walk t o ms = .error .notFound) :
    (makeDirectory d).run (disk.files cwd) t = (.error .notFound, t) := by
  rw [run_makeDirectory, hd.null, if_neg Bool.false_ne_true, FileTree.makeDirectory,
    FileTree.locate_concat t cwd hd.names hd.size, hd.origin, hwalk]

theorem usable_take {absolute : Bool} (hns : Path.Written absolute ns)
    (hd : Usable cwd o (Path.ofNames absolute ns) ns) (k : Nat) :
    Usable cwd o (Path.ofNames absolute (ns.take k)) (ns.take k) := by
  have hproper : ∀ n ∈ ns.take k, Path.Proper n := fun n hn => hns.proper n (List.mem_of_mem_take hn)
  refine ⟨?_, ?_, Path.names_ofNames absolute hproper, ?_⟩
  · have hnull := hd.null
    rw [Path.holdsNull, Bool.eq_false_iff, ne_eq, List.contains_iff_mem] at hnull ⊢
    intro hmem
    apply hnull
    rcases Path.mem_toList_ofNames hmem with hslash | ⟨n, hn, hmem⟩
    · exact absurd hslash (by decide)
    · refine Path.mem_toList_of_mem_names ?_ hmem
      rw [hd.names]
      exact List.mem_of_mem_take hn
  · exact Nat.le_trans (Path.size_ofNames_take absolute ns k) hd.size
  · rw [← hd.origin, FileTree.origin, FileTree.origin, Path.isAbsolute_ofNames absolute hproper,
      Path.isAbsolute_ofNames absolute hns.proper]

theorem range_reverse_succ (k : Nat) :
    (List.range (k + 1)).reverse = k :: (List.range k).reverse := by
  rw [List.range_succ, List.reverse_append]
  rfl

theorem keeps_ancestors (disk : Disk) {absolute : Bool} (hns : Path.Written absolute ns)
    (hd : Usable cwd o (Path.ofNames absolute ns) ns) (k : Nat) :
    ∀ e ∈ Path.ofNames absolute (ns.take k) ::
      (List.range k).reverse.map (fun j => Path.ofNames absolute (ns.take j)),
      Keeps disk cwd o ns e := by
  have ho : o = if absolute then [] else cwd := by
    rw [← hd.origin, FileTree.origin, Path.isAbsolute_ofNames absolute hns.proper]
  rw [ho]
  refine List.forall_mem_cons.mpr ⟨keeps_take disk cwd hns k, fun e he => ?_⟩
  obtain ⟨j, -, rfl⟩ := List.mem_map.mp he
  exact keeps_take disk cwd hns j

theorem run_makeWithin_clear (disk : Disk) {absolute : Bool} (hns : Path.Written absolute ns)
    (hd : Usable cwd o (Path.ofNames absolute ns) ns) (k : Nat) (hk : k < ns.length)
    (hclear : Clear t o (ns.take (k + 1))) :
    ∃ u, (makeWithin (Path.ofNames absolute (ns.take (k + 1)))
        ((List.range (k + 1)).reverse.map fun j => Path.ofNames absolute (ns.take j))).run
        (disk.files cwd) t = (.ok (), u) ∧
      walk u o (ns.take (k + 1)) = .ok (lead o (ns.take (k + 1))) := by
  have htake (j : Nat) (hj : j < ns.length) : ns.take (j + 1) = ns.take j ++ [ns[j]] :=
    List.take_succ_eq_append_getElem hj
  have husable (j : Nat) (hj : j < ns.length) :
      Usable cwd o (Path.ofNames absolute (ns.take (j + 1))) (ns.take j ++ [ns[j]]) := by
    have htaken := usable_take hns hd (j + 1)
    rwa [htake j hj] at htaken ⊢
  have hlead (j : Nat) (hj : j < ns.length) :
      next (lead o (ns.take j)) ns[j] = lead o (ns.take (j + 1)) := by
    rw [htake j hj, lead, lead, List.foldl_append]
    rfl
  have hensured (u : FileTree) (j : Nat) (hj : j < ns.length)
      (hwalk : walk u o (ns.take j) = .ok (lead o (ns.take j)))
      (hu : Clear u o (ns.take (j + 1))) :
      ((makeDirectory (Path.ofNames absolute (ns.take (j + 1)))).run (disk.files cwd) u).1
        ≠ .error .notFound ∧
      ∃ v, (ensureDirectory (Path.ofNames absolute (ns.take (j + 1)))).run (disk.files cwd) u
          = (.ok (), v) ∧
        walk v o (ns.take (j + 1)) = .ok (lead o (ns.take (j + 1))) := by
    rw [htake j hj] at hu
    have hmade := run_ensureDirectory_clear disk (husable j hj) hwalk hu
    rwa [hlead j hj, ← htake j hj] at hmade
  induction k generalizing t with
  | zero =>
      obtain ⟨hmake, u, hensure, hwalk⟩ := hensured t 0 hk rfl hclear
      refine ⟨u, ?_, hwalk⟩
      rw [range_reverse_succ, List.map_cons,
        run_makeWithin_ensured (husable 0 hk).ne_empty _ _ hmake, hensure]
  | succ k ih =>
      have hbefore : Clear t o (ns.take (k + 1)) := by
        rw [htake (k + 1) hk] at hclear
        exact ((FileTree.clear_append t o _ _).mp hclear).1
      rw [range_reverse_succ, List.map_cons]
      rcases hbefore.walk with hwalk | hwalk
      · obtain ⟨hmake, u, hensure, hthere⟩ := hensured t (k + 1) hk hwalk hclear
        refine ⟨u, ?_, hthere⟩
        rw [run_makeWithin_ensured (husable (k + 1) hk).ne_empty _ _ hmake, hensure]
      · obtain ⟨u, hwithin, hthere⟩ := ih (Nat.lt_of_succ_lt hk) hbefore
        have hgrown := grown_makeWithin (keeps_ancestors disk hns hd (k + 1)) t
        rw [hwithin] at hgrown
        have hstill : Clear u o (ns.take (k + 2)) :=
          hclear.mono fun p bytes => (hgrown.file_iff p bytes).mp
        obtain ⟨-, v, hensure, hthere⟩ := hensured u (k + 1) hk hthere hstill
        refine ⟨v, ?_, hthere⟩
        rw [run_makeWithin_missing (husable (k + 1) hk).ne_empty _ _
          (run_makeDirectory_missing (husable (k + 1) hk) hwalk), hwithin]
        exact hensure

theorem run_makeDirectories_clear (disk : Disk) {absolute : Bool} (hns : Path.Written absolute ns)
    (hd : Usable cwd o (Path.ofNames absolute ns) ns) (hclear : Clear t o ns) :
    ∃ u, (makeDirectories (Path.ofNames absolute ns)).run (disk.files cwd) t = (.ok (), u) ∧
      walk u o ns = .ok (lead o ns) := by
  rw [makeDirectories, if_neg (Path.ofNames_ne_empty hns.proper hns.nonempty),
    Path.ancestors_ofNames hns.proper hns.sparse]
  cases hlength : ns.length with
  | zero =>
      obtain rfl := List.eq_nil_of_length_eq_zero hlength
      obtain rfl : absolute = true := hns.nonempty.resolve_right fun h => h rfl
      exact ⟨t, rfl, rfl⟩
  | succ k =>
      have hall : ns.take (k + 1) = ns := List.take_of_length_le (Nat.le_of_eq hlength)
      have hmade := run_makeWithin_clear disk hns hd k (by omega) (hall.symm ▸ hclear)
      rwa [hall] at hmade

end Files

end DurableCalc
