import DurableCalc.Proofs.Places

namespace DurableCalc.FileStore

open FileTree (Names Passes endsInSlash get? locate nameLimit origin pathLimit walk)

variable {disk : Disk} {cwd : List String} {path : String} {t : FileTree}

def above (path : String) : List String :=
  if endsInSlash path then Path.names path else (Path.names path).dropLast

inductive Unreadable (cwd : List String) (path : String) (t : FileTree) : Prop where
  | null : Path.holdsNull path = true → Unreadable cwd path t
  | long : pathLimit < path.utf8ByteSize → Unreadable cwd path t
  | longName {p : List String} {n : String} : Passes t (origin cwd path) (Path.names path) (p ++ [n]) →
      nameLimit < n.utf8ByteSize → Unreadable cwd path t
  | file {p : List String} {bytes : ByteArray} : Passes t (origin cwd path) (above path) p →
      get? t p = some (.file bytes) → Unreadable cwd path t
  | directory : FileTree.isDirectory cwd path t = true → Unreadable cwd path t

def fileAt (cwd : List String) (path : String) (t : FileTree) : Option ByteArray :=
  match locate t cwd path with
  | .ok (.entry p _) =>
      match get? t p with
      | some (.file bytes) => some bytes
      | _ => none
  | _ => none

theorem passes_above {ms : List String} {l : String} (hnames : Path.names path = ms ++ [l])
    {p : List String} (h : Passes t (origin cwd path) ms p) :
    Passes t (origin cwd path) (above path) p := by
  rw [above, hnames, List.dropLast_concat]
  split
  · exact h.append [l]
  · exact h

theorem unreadable_of_read {f : Failure} (h : FileTree.read cwd path t = .error f)
    (hf : f ≠ .notFound) : Unreadable cwd path t := by
  by_cases hsize : pathLimit < path.utf8ByteSize
  · exact .long hsize
  have hsize := Nat.le_of_not_lt hsize
  rw [FileTree.read] at h
  rcases List.eq_nil_or_concat (Path.names path) with hnames | ⟨ms, l, hnames⟩
  · by_cases hne : path = ""
    · subst hne
      exact absurd (Except.error.inj h).symm hf
    · refine .directory ?_
      rw [FileTree.isDirectory, FileTree.locate_nil t cwd hnames hne hsize]
  rw [List.concat_eq_append] at hnames
  rw [FileTree.locate_concat t cwd hnames hsize] at h
  have hdirectory := FileTree.locate_concat t cwd hnames hsize
  cases hwalk : walk t (origin cwd path) ms with
  | error e =>
      rw [hwalk] at h
      obtain rfl := Except.error.inj h
      rcases FileTree.walk_error hwalk with rfl | ⟨p, n, hpasses, hlong | ⟨bytes, hfile⟩⟩
      · exact absurd rfl hf
      · exact .longName (hnames ▸ hpasses.append [l]) hlong
      · exact .file (passes_above hnames hpasses) hfile
  | ok here =>
      rw [hwalk] at h hdirectory
      simp only at h hdirectory
      by_cases hl : l = "." ∨ l = ".."
      · rw [if_pos hl] at hdirectory
        refine .directory ?_
        rw [FileTree.isDirectory, hdirectory]
      have hpasses : Passes t (origin cwd path) (Path.names path) (here ++ [l]) :=
        ⟨ms, l, [], here, hnames, not_or.mp hl, hwalk, rfl⟩
      by_cases hlong : nameLimit < l.utf8ByteSize
      · exact .longName hpasses hlong
      rw [if_neg hl, if_neg hlong] at h hdirectory
      simp only at h
      cases hnode : get? t (here ++ [l]) with
      | none =>
          rw [hnode] at h
          exact absurd (Except.error.inj h).symm hf
      | some node =>
          rw [hnode] at h
          cases node with
          | directory =>
              refine .directory ?_
              rw [FileTree.isDirectory, hdirectory]
              exact (FileTree.holdsDirectory_iff t _).mpr hnode
          | file bytes =>
              simp only at h
              by_cases hslash : endsInSlash path = true
              · refine .file ?_ hnode
                rwa [above, if_pos hslash]
              · rw [if_neg hslash] at h
                cases h

theorem passes_concat {here ms : List String} {l : String} {p : List String}
    (h : Passes t here (ms ++ [l]) p) :
    Passes t here ms p ∨ Names l ∧ ∃ q, walk t here ms = .ok q ∧ p = q ++ [l] := by
  obtain ⟨ks, n, rest, q, hsplit, hn, hwalk, rfl⟩ := h
  rcases List.eq_nil_or_concat rest with rfl | ⟨rest, x, rfl⟩
  · obtain ⟨rfl, hl⟩ := List.append_inj' hsplit rfl
    obtain rfl : l = n := (List.cons.inj hl).1
    exact .inr ⟨hn, q, hwalk, rfl⟩
  · rw [List.concat_eq_append, ← List.cons_append, ← List.append_assoc] at hsplit
    exact .inl ⟨ks, n, rest, q, (List.append_inj' hsplit rfl).1, hn, hwalk, rfl⟩

theorem read_of_unreadable (h : Unreadable cwd path t) (hnull : Path.holdsNull path = false) :
    ∃ f, FileTree.read cwd path t = .error f ∧ f ≠ .notFound := by
  rw [FileTree.read]
  by_cases hsize : pathLimit < path.utf8ByteSize
  · rw [FileTree.locate_long t cwd hsize]
    exact ⟨_, rfl, nofun⟩
  have hshort := Nat.le_of_not_lt hsize
  have hstopped {ms : List String} {l : String} (hnames : Path.names path = ms ++ [l])
      {p : List String} {n : String} (hpasses : Passes t (origin cwd path) ms (p ++ [n]))
      (hobstacle : nameLimit < n.utf8ByteSize ∨ ∃ bytes, get? t (p ++ [n]) = some (.file bytes)) :
      ∃ f, locate t cwd path = .error f ∧ f ≠ .notFound := by
    obtain ⟨f, hwalk, hf⟩ := FileTree.walk_stopped hpasses hobstacle
    refine ⟨f, ?_, hf⟩
    rw [FileTree.locate_concat t cwd hnames hshort, hwalk]
  have hnames (hne : Path.names path ≠ []) : ∃ ms l, Path.names path = ms ++ [l] :=
    ⟨_, _, (List.dropLast_concat_getLast hne).symm⟩
  cases h with
  | null h =>
      rw [hnull] at h
      cases h
  | long h => exact absurd h hsize
  | longName hpasses hlong =>
      obtain ⟨ms, l, hnames⟩ := hnames hpasses.ne_nil
      rw [hnames] at hpasses
      rcases passes_concat hpasses with hpasses | ⟨hl, q, hwalk, heq⟩
      · obtain ⟨f, hlocate, hf⟩ := hstopped hnames hpasses (.inl hlong)
        rw [hlocate]
        exact ⟨f, rfl, hf⟩
      · obtain rfl := (List.cons.inj (List.append_inj' heq rfl).2).1
        rw [FileTree.locate_concat t cwd hnames hshort, hwalk]
        simp only [if_neg (not_or.mpr hl), if_pos hlong]
        exact ⟨_, rfl, nofun⟩
  | @file p bytes hpasses hfile =>
      have hplace : ∃ q n, p = q ++ [n] := by
        obtain ⟨-, n, -, q, -, -, -, hp⟩ := hpasses
        exact ⟨q, n, hp⟩
      obtain ⟨q, n, rfl⟩ := hplace
      rw [above] at hpasses
      by_cases hslash : endsInSlash path = true
      · rw [if_pos hslash] at hpasses
        obtain ⟨ms, l, hnames⟩ := hnames hpasses.ne_nil
        rw [hnames] at hpasses
        rcases passes_concat hpasses with hpasses | ⟨hl, q', hwalk, heq⟩
        · obtain ⟨f, hlocate, hf⟩ := hstopped hnames hpasses (.inr ⟨bytes, hfile⟩)
          rw [hlocate]
          exact ⟨f, rfl, hf⟩
        · rw [heq] at hfile
          rw [FileTree.locate_concat t cwd hnames hshort, hwalk]
          simp only [if_neg (not_or.mpr hl)]
          by_cases hlong : nameLimit < l.utf8ByteSize
          · simp only [if_pos hlong]
            exact ⟨_, rfl, nofun⟩
          · simp only [if_neg hlong, hfile, if_pos hslash]
            exact ⟨_, rfl, nofun⟩
      · rw [if_neg hslash] at hpasses
        obtain ⟨ms, l, hnames⟩ := hnames fun hnil => hpasses.ne_nil (by rw [hnil, List.dropLast_nil])
        rw [hnames, List.dropLast_concat] at hpasses
        obtain ⟨f, hlocate, hf⟩ := hstopped hnames hpasses (.inr ⟨bytes, hfile⟩)
        rw [hlocate]
        exact ⟨f, rfl, hf⟩
  | directory h =>
      rw [FileTree.isDirectory] at h
      cases hlocate : locate t cwd path with
      | error f =>
          rw [hlocate] at h
          cases h
      | ok place =>
          rw [hlocate] at h
          cases place with
          | dots => exact ⟨_, rfl, nofun⟩
          | entry p slash =>
              simp only [(FileTree.holdsDirectory_iff t p).mp h]
              exact ⟨_, rfl, nofun⟩

theorem run_load (disk : Disk) (cwd : List String) (path : String) (t : FileTree) :
    (load path).run (disk.files cwd) t
      = (if Path.holdsNull path then .error .nullInName
          else
            match FileTree.read cwd path t with
            | .error .notFound => .ok ByteArray.empty
            | r => r, t) := by
  rw [load, Program.run_bind, Files.read]
  by_cases hnull : Path.holdsNull path = true
  · rw [if_pos hnull, if_pos hnull]
    rfl
  · rw [if_neg hnull, if_neg hnull]
    have hask : (Program.ask (I := Files) (.read path)).run (disk.files cwd) t
        = (FileTree.read cwd path t, t) := rfl
    rw [hask]
    cases FileTree.read cwd path t with
    | ok bytes => rfl
    | error f => cases f <;> rfl

theorem load_fails_iff (disk : Disk) (cwd : List String) (path : String) (t : FileTree) :
    (∃ f, ((load path).run (disk.files cwd) t).1 = .error f) ↔ Unreadable cwd path t := by
  rw [run_load]
  by_cases hnull : Path.holdsNull path = true
  · rw [if_pos hnull]
    exact ⟨fun _ => .null hnull, fun _ => ⟨_, rfl⟩⟩
  · rw [if_neg hnull]
    constructor
    · rintro ⟨f, hf⟩
      cases hread : FileTree.read cwd path t with
      | ok bytes =>
          rw [hread] at hf
          cases hf
      | error e =>
          refine unreadable_of_read hread ?_
          rintro rfl
          rw [hread] at hf
          cases hf
    · intro h
      obtain ⟨f, hread, hf⟩ := read_of_unreadable h (Bool.eq_false_iff.mpr hnull)
      rw [hread]
      cases f with
      | notFound => exact absurd rfl hf
      | _ => exact ⟨_, rfl⟩

theorem read_eq (h : ∀ f, FileTree.read cwd path t = .error f → f = .notFound) :
    FileTree.read cwd path t
      = match fileAt cwd path t with
        | some bytes => .ok bytes
        | none => .error .notFound := by
  rw [fileAt]
  rw [FileTree.read] at h ⊢
  cases hlocate : locate t cwd path with
  | error f =>
      rw [hlocate] at h
      obtain rfl := h f rfl
      rfl
  | ok place =>
      rw [hlocate] at h
      cases place with
      | dots => exact absurd (h _ rfl) nofun
      | entry p slash =>
          simp only at h ⊢
          cases hnode : get? t p with
          | none => rfl
          | some node =>
              rw [hnode] at h
              cases node with
              | directory => exact absurd (h _ rfl) nofun
              | file bytes =>
                  simp only at h ⊢
                  cases slash with
                  | true => exact absurd (h _ rfl) nofun
                  | false => rfl

theorem load_eq (disk : Disk) (h : ¬ Unreadable cwd path t) :
    (load path).run (disk.files cwd) t = (.ok ((fileAt cwd path t).getD ByteArray.empty), t) := by
  have hnull : ¬ Path.holdsNull path = true := fun hnull => h (.null hnull)
  rw [run_load, if_neg hnull, read_eq]
  · cases fileAt cwd path t <;> rfl
  · intro f hread
    by_contra hf
    exact h (unreadable_of_read hread hf)

end DurableCalc.FileStore
