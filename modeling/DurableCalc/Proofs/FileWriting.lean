import DurableCalc.Proofs.Directories
import DurableCalc.Proofs.FileReading

namespace DurableCalc.Disk

def Fresh (disk : Disk) : Prop :=
  ∀ t here, FileTree.get? t (here ++ [disk.name t here]) = none

structure Steady (disk : Disk) : Prop where
  write : ∀ t temporary bytes, disk.refusedWrite t temporary bytes = none
  sync : ∀ t temporary, disk.refusedSync t temporary = none

theorem fresh_standard : standard.Fresh :=
  FileTree.get?_freshName

theorem steady_standard : standard.Steady :=
  ⟨fun _ _ _ => rfl, fun _ _ => rfl⟩

end DurableCalc.Disk

namespace DurableCalc.FileStore

open FileTree (Clear Crosses Grown Holds Names endsInSlash erase get? lead locate nameLimit origin
  pathLimit put walk)

variable {disk : Disk} {cwd : List String} {path : String} {bytes : ByteArray} {t u v : FileTree}

theorem written_directory (path : String) :
    ∃ absolute, directory path = Path.ofNames absolute (Path.names (directory path)) ∧
      Path.Written absolute (Path.names (directory path)) := by
  obtain ⟨absolute, ns, hdirectory, hwritten, -⟩ := Path.directory_eq path
  have hnames : Path.names (directory path) = ns := by
    rw [hdirectory, Path.names_ofNames absolute hwritten.proper]
  rw [hnames]
  exact ⟨absolute, hdirectory, hwritten⟩

theorem walk_directory {ms : List String} {l : String} (hnames : Path.names path = ms ++ [l])
    (hl : l ≠ ".") (t : FileTree) :
    walk t (origin cwd path) ms
      = walk t (origin cwd (directory path)) (Path.names (directory path)) := by
  obtain ⟨absolute, ns, hdirectory, hwritten, -, hsame⟩ := Path.directory_eq path
  obtain ⟨habsolute, hundotted⟩ := hsame ms l hnames hl
  rw [← FileTree.walk_undotted t _ ms, ← hundotted, FileTree.walk_undotted, hdirectory,
    Path.names_ofNames absolute hwritten.proper, origin, origin,
    Path.isAbsolute_ofNames absolute hwritten.proper, habsolute]

theorem holdsNull_directory (h : Path.holdsNull path = false) :
    Path.holdsNull (directory path) = false := by
  obtain ⟨absolute, ns, hdirectory, -, hmem, -⟩ := Path.directory_eq path
  rw [Path.holdsNull, Bool.eq_false_iff, ne_eq, List.contains_iff_mem] at h ⊢
  intro hnull
  rw [hdirectory] at hnull
  rcases Path.mem_toList_ofNames hnull with hslash | ⟨n, hn, hnull⟩
  · exact absurd hslash (by decide)
  · rcases hmem n hn with rfl | hn
    · exact absurd hnull (by decide)
    · exact h (Path.mem_toList_of_mem_names hn hnull)

abbrev Prepared (cwd : List String) (path : String) (t u : FileTree) : Prop :=
  Grown (origin cwd (directory path)) (Path.names (directory path)) t u

theorem prepared_makeDirectories (disk : Disk) (cwd : List String) (path : String) (t : FileTree) :
    Prepared cwd path t ((Files.makeDirectories (directory path)).run (disk.files cwd) t).2 := by
  obtain ⟨absolute, hdirectory, hwritten⟩ := written_directory path
  have hgrown : Grown (if absolute then [] else cwd) _ t _ :=
    Files.grown_makeDirectories disk hwritten t
  rwa [← hdirectory, ← Path.isAbsolute_ofNames absolute hwritten.proper, ← hdirectory] at hgrown

def Room (disk : Disk) (cwd : List String) (path : String) : Prop :=
  (Path.join (Path.join (Path.ofNames true cwd) (directory path)) "").utf8ByteSize + disk.nameSize
    ≤ pathLimit

theorem size_le_join (d e : String) : e.utf8ByteSize ≤ (Path.join d e).utf8ByteSize := by
  rw [Path.join]
  split
  · exact Nat.le_refl _
  · split <;> simp only [String.utf8ByteSize_append] <;> omega

theorem size_le_join_empty (d : String) : d.utf8ByteSize ≤ (Path.join d "").utf8ByteSize := by
  rw [Path.join]
  split
  · next h =>
      rcases h with h | rfl
      · cases h
      · exact Nat.le_refl _
  · split <;> simp only [String.utf8ByteSize_append] <;> omega

theorem Room.size (h : Room disk cwd path) : (directory path).utf8ByteSize ≤ pathLimit := by
  rw [Room] at h
  have hbase := size_le_join (Path.ofNames true cwd) (directory path)
  have hall := size_le_join_empty (Path.join (Path.ofNames true cwd) (directory path))
  omega

theorem run_createTemporary (hnull : Path.holdsNull (directory path) = false)
    (hroom : Room disk cwd path) (t : FileTree) :
    (Files.createTemporary (directory path)).run (disk.files cwd) t
      = match walk t (origin cwd (directory path)) (Path.names (directory path)) with
        | .error f => (.error f, t)
        | .ok here =>
            match get? t (here ++ [disk.name t here]) with
            | some _ => (.error .alreadyExists, t)
            | none =>
                (.ok (here ++ [disk.name t here]),
                  put t (here ++ [disk.name t here]) (.file ByteArray.empty)) := by
  have hrun : (Files.createTemporary (directory path)).run (disk.files cwd) t
      = disk.createTemporary cwd (directory path) t := by
    rw [Files.createTemporary, hnull]
    rfl
  rw [hrun, Disk.createTemporary, if_neg (Nat.not_lt.mpr hroom)]
  rfl

theorem createTemporary_cases (disk : Disk) (cwd : List String) (path : String) (t : FileTree) :
    (∃ f, (Files.createTemporary (directory path)).run (disk.files cwd) t = (.error f, t)) ∨
    ∃ here n, Room disk cwd path ∧
      walk t (origin cwd (directory path)) (Path.names (directory path)) = .ok here ∧
      get? t (here ++ [n]) = none ∧
      (Files.createTemporary (directory path)).run (disk.files cwd) t
        = (.ok (here ++ [n]), put t (here ++ [n]) (.file ByteArray.empty)) := by
  cases hnull : Path.holdsNull (directory path) with
  | true =>
      refine .inl ⟨.nullInName, ?_⟩
      rw [Files.createTemporary, hnull]
      rfl
  | false =>
      by_cases hroom : Room disk cwd path
      · rw [run_createTemporary hnull hroom]
        cases walk t (origin cwd (directory path)) (Path.names (directory path)) with
        | error f => exact .inl ⟨f, rfl⟩
        | ok here =>
            cases htaken : get? t (here ++ [disk.name t here]) with
            | some node => exact .inl ⟨.alreadyExists, by simp only [htaken]⟩
            | none => exact .inr ⟨here, _, hroom, rfl, htaken, by simp only [htaken]⟩
      · refine .inl ⟨.nameTooLong, ?_⟩
        rw [Files.createTemporary, hnull]
        exact if_pos (Nat.lt_of_not_le hroom)

theorem createTemporary_fresh (hfresh : disk.Fresh)
    (hnull : Path.holdsNull (directory path) = false) (hroom : Room disk cwd path) {here : List String}
    (hwalk : walk t (origin cwd (directory path)) (Path.names (directory path)) = .ok here) :
    ∃ n, get? t (here ++ [n]) = none ∧
      (Files.createTemporary (directory path)).run (disk.files cwd) t
        = (.ok (here ++ [n]), put t (here ++ [n]) (.file ByteArray.empty)) := by
  refine ⟨disk.name t here, hfresh t here, ?_⟩
  simp only [run_createTemporary hnull hroom, hwalk, hfresh t here]

theorem put_put (t : FileTree) (p : List String) (m n : Node) : put (put t p m) p n = put t p n := by
  simp [put, erase, List.filter_append]

theorem get?_erase_put {p : List String} (h : get? t p = none) (n : Node) (q : List String) :
    get? (erase (put t p n) p) q = get? t q := by
  have hne : p ≠ [] := by
    rintro rfl
    cases h
  by_cases hq : q = p
  · rw [hq, FileTree.get?_erase_self _ hne, h]
  · rw [FileTree.get?_erase_of_ne _ hq, FileTree.get?_put_of_ne t n hq]

theorem run_replace (disk : Disk) (cwd : List String) (temporary : Files.Temporary) (path : String)
    (bytes : ByteArray) (t : FileTree) :
    (replace temporary path bytes).run (disk.files cwd) t
      = match disk.writeTemporary temporary bytes t with
        | (.error f, u) => (.error f, u)
        | (.ok (), u) =>
            match disk.syncTemporary temporary u with
            | .error f => (.error f, u)
            | .ok () => (Files.rename temporary path).run (disk.files cwd) u := by
  have hwrite : (Files.writeTemporary temporary bytes).run (disk.files cwd) t
      = disk.writeTemporary temporary bytes t := rfl
  rw [replace, Program.run_bind, hwrite]
  obtain ⟨written, u⟩ := disk.writeTemporary temporary bytes t
  cases written with
  | error f => rfl
  | ok _ =>
      simp only
      have hsync : (Files.syncTemporary temporary).run (disk.files cwd) u
          = (disk.syncTemporary temporary u, u) := rfl
      rw [Program.run_bind, hsync]
      cases disk.syncTemporary temporary u <;> rfl

theorem run_store (disk : Disk) (cwd : List String) (path : String) (bytes : ByteArray)
    (t : FileTree) :
    (store path bytes).run (disk.files cwd) t
      = match (Files.makeDirectories (directory path)).run (disk.files cwd) t with
        | (.error f, u) => (.error f, u)
        | (.ok (), u) =>
            match (Files.createTemporary (directory path)).run (disk.files cwd) u with
            | (.error f, v) => (.error f, v)
            | (.ok p, v) =>
                match (replace p path bytes).run (disk.files cwd) v with
                | (.ok (), w) => (.ok (), w)
                | (.error f, w) => (.error f, FileTree.remove p w) := by
  rw [store, Program.run_bind]
  obtain ⟨made, u⟩ := (Files.makeDirectories (directory path)).run (disk.files cwd) t
  cases made with
  | error f => rfl
  | ok _ =>
      simp only
      rw [Program.run_bind]
      obtain ⟨created, v⟩ := (Files.createTemporary (directory path)).run (disk.files cwd) u
      cases created with
      | error f => rfl
      | ok p =>
          simp only
          rw [Program.run_bind]
          obtain ⟨replaced, w⟩ := (replace p path bytes).run (disk.files cwd) v
          cases replaced <;> rfl

structure Open (disk : Disk) (cwd : List String) (path : String) (t : FileTree) (p : List String) : Prop where
  null : Path.holdsNull path = false
  room : Room disk cwd path
  walk : ∃ here,
    FileTree.walk t (origin cwd (directory path)) (Path.names (directory path)) = .ok here
  locate : FileTree.locate t cwd path = .ok (.entry p false)
  free : get? t p ≠ some .directory

theorem Open.mono {p : List String} (h : Open disk cwd path t p) (hholds : Holds t u)
    (hfree : get? u p ≠ some .directory) : Open disk cwd path u p where
  null := h.null
  room := h.room
  walk := h.walk.imp fun _ => hholds.walk
  locate := hholds.locate h.locate
  free := hfree

theorem Open.place {p q : List String} (h : Open disk cwd path t p)
    (hlocate : FileTree.locate t cwd path = .ok (.entry q false)) : p = q := by
  have hplace := h.locate.symm.trans hlocate
  exact (FileTree.Place.entry.inj (Except.ok.inj hplace)).1

theorem rename_cases {here : List String} {n : String} (hroom : Room disk cwd path)
    (hwalk : walk t (origin cwd (directory path)) (Path.names (directory path)) = .ok here)
    (hnone : get? t (here ++ [n]) = none) (bytes : ByteArray) :
    (∃ f, (Files.rename (here ++ [n]) path).run (disk.files cwd) (put t (here ++ [n]) (.file bytes))
        = (.error f, put t (here ++ [n]) (.file bytes)) ∧ ∀ p, ¬ Open disk cwd path t p) ∨
    ∃ p, Open disk cwd path t p ∧
      (Files.rename (here ++ [n]) path).run (disk.files cwd) (put t (here ++ [n]) (.file bytes))
        = (.ok (), put (erase (put t (here ++ [n]) (.file bytes)) (here ++ [n])) p (.file bytes)) := by
  have hne : here ++ [n] ≠ [] := List.append_ne_nil_of_right_ne_nil _ (List.cons_ne_nil _ _)
  have hfile := FileTree.get?_put_self t (.file bytes) hne
  have hholds : Holds t (put t (here ++ [n]) (.file bytes)) := FileTree.holds_put hnone _
  have hdirectory (p : List String) :
      get? (put t (here ++ [n]) (.file bytes)) p = some .directory ↔ get? t p = some .directory := by
    by_cases hp : p = here ++ [n]
    · rw [hp, hfile, hnone]
      exact ⟨nofun, nofun⟩
    · rw [FileTree.get?_put_of_ne t _ hp]
  generalize put t (here ++ [n]) (.file bytes) = u at hfile hholds hdirectory
  by_cases hnull : Path.holdsNull path = true
  · refine .inl ⟨.invalidArgument, ?_, fun p h => ?_⟩
    · rw [Files.rename, if_pos hnull]
      rfl
    · rw [h.null] at hnull
      cases hnull
  have hrename : (Files.rename (here ++ [n]) path).run (disk.files cwd) u
      = FileTree.rename cwd (here ++ [n]) path u := by
    rw [Files.rename, if_neg hnull]
    rfl
  rw [hrename, FileTree.rename]
  cases hlocate : FileTree.locate u cwd path with
  | error f =>
      refine .inl ⟨f, rfl, fun p h => ?_⟩
      rw [hholds.locate h.locate] at hlocate
      cases hlocate
  | ok place =>
      cases place with
      | dots =>
          refine .inl ⟨.busy, rfl, fun p h => ?_⟩
          rw [hholds.locate h.locate] at hlocate
          cases hlocate
      | entry p slash =>
          have hsame {q : List String} (h : Open disk cwd path t q) : q = p ∧ slash = false := by
            have hplace := (hholds.locate h.locate).symm.trans hlocate
            obtain ⟨hq, hslash⟩ := FileTree.Place.entry.inj (Except.ok.inj hplace)
            exact ⟨hq, hslash.symm⟩
          simp only [hfile]
          cases slash with
          | true => exact .inl ⟨.notADirectory, rfl, fun q h => Bool.noConfusion (hsame h).2⟩
          | false =>
              by_cases hthere : get? u p = some .directory
              · refine .inl ⟨.isADirectory, ?_, fun q h => ?_⟩
                · rw [(FileTree.holdsDirectory_iff u p).mpr hthere]
                  rfl
                · obtain ⟨rfl, -⟩ := hsame h
                  exact h.free ((hdirectory q).mp hthere)
              · have hfree : FileTree.holdsDirectory u p = false :=
                  Bool.eq_false_iff.mpr fun h => hthere ((FileTree.holdsDirectory_iff u p).mp h)
                refine .inr ⟨p, ⟨Bool.eq_false_iff.mpr hnull, hroom, ⟨here, hwalk⟩, ?_, ?_⟩, ?_⟩
                · obtain ⟨ms, l, k, hnames, hsize, hl, hshort, hms, rfl, hslash⟩ :=
                    FileTree.locate_entry_cases hlocate
                  rw [walk_directory hnames hl.1, hholds.walk hwalk] at hms
                  obtain rfl := Except.ok.inj hms
                  rw [hslash]
                  exact FileTree.locate_entry hnames hsize hl hshort
                    ((walk_directory hnames hl.1 t).trans hwalk)
                · exact fun h => hthere ((hdirectory p).mpr h)
                · rw [hfree]
                  rfl

theorem replace_cases {here : List String} {n : String} (hroom : Room disk cwd path)
    (hwalk : walk t (origin cwd (directory path)) (Path.names (directory path)) = .ok here)
    (hnone : get? t (here ++ [n]) = none) (bytes : ByteArray) :
    (∃ f part, (replace (here ++ [n]) path bytes).run (disk.files cwd)
        (put t (here ++ [n]) (.file ByteArray.empty)) = (.error f, put t (here ++ [n]) (.file part)) ∧
      (disk.Steady → ∀ p, ¬ Open disk cwd path t p)) ∨
    ∃ p, Open disk cwd path t p ∧
      (replace (here ++ [n]) path bytes).run (disk.files cwd)
          (put t (here ++ [n]) (.file ByteArray.empty))
        = (.ok (), put (erase (put t (here ++ [n]) (.file bytes)) (here ++ [n])) p (.file bytes)) := by
  rw [run_replace, Disk.writeTemporary]
  cases hwrite : disk.refusedWrite (put t (here ++ [n]) (.file ByteArray.empty)) (here ++ [n]) bytes with
  | some refused =>
      refine .inl ⟨refused.1, refused.2, by simp only [put_put], fun hsteady => ?_⟩
      rw [hsteady.write] at hwrite
      cases hwrite
  | none =>
      simp only [put_put]
      rw [Disk.syncTemporary]
      cases hsync : disk.refusedSync (put t (here ++ [n]) (.file bytes)) (here ++ [n]) with
      | some f =>
          refine .inl ⟨f, bytes, rfl, fun hsteady => ?_⟩
          rw [hsteady.sync] at hsync
          cases hsync
      | none =>
          rcases rename_cases hroom hwalk hnone bytes with ⟨f, hrename, hclosed⟩ | hrename
          · exact .inl ⟨f, bytes, hrename, fun _ => hclosed⟩
          · exact .inr hrename

inductive Stored (disk : Disk) (cwd : List String) (path : String) (bytes : ByteArray)
    (t : FileTree) : Except Failure Unit × FileTree → Prop where
  | failed {f : Failure} {u v : FileTree} : Prepared cwd path t u → (∀ p, get? v p = get? u p) →
      Stored disk cwd path bytes t (.error f, v)
  | done {u v : FileTree} {p : List String} : Prepared cwd path t u → Open disk cwd path u p →
      get? v p = some (.file bytes) → (∀ q, q ≠ p → get? v q = get? u q) →
      Stored disk cwd path bytes t (.ok (), v)

theorem run_store_cases (disk : Disk) (cwd : List String) (path : String) (bytes : ByteArray)
    (t : FileTree) : Stored disk cwd path bytes t ((store path bytes).run (disk.files cwd) t) := by
  have hprepared := prepared_makeDirectories disk cwd path t
  rw [run_store]
  generalize (Files.makeDirectories (directory path)).run (disk.files cwd) t = made at hprepared ⊢
  obtain ⟨result, u⟩ := made
  cases result with
  | error f => exact .failed hprepared fun _ => rfl
  | ok _ =>
      simp only at hprepared ⊢
      rcases createTemporary_cases disk cwd path u with
        ⟨f, hcreate⟩ | ⟨here, n, hroom, hwalk, hnone, hcreate⟩
      · rw [hcreate]
        exact .failed hprepared fun _ => rfl
      · rw [hcreate]
        simp only
        have hne : here ++ [n] ≠ [] := List.append_ne_nil_of_right_ne_nil _ (List.cons_ne_nil _ _)
        rcases replace_cases hroom hwalk hnone bytes with
          ⟨f, part, hreplace, -⟩ | ⟨p, hopen, hreplace⟩
        · rw [hreplace]
          refine .failed hprepared fun q => ?_
          rw [FileTree.remove, FileTree.get?_put_self u _ hne]
          dsimp only
          exact get?_erase_put hnone _ q
        · rw [hreplace]
          have hp : p ≠ [] := by
            rintro rfl
            exact hopen.free rfl
          refine .done hprepared hopen (FileTree.get?_put_self _ _ hp) fun q hq => ?_
          rw [FileTree.get?_put_of_ne _ _ hq]
          exact get?_erase_put hnone _ q

def target (cwd : List String) (path l : String) : List String :=
  lead (origin cwd (directory path)) (Path.names (directory path)) ++ [l]

structure Writable (disk : Disk) (cwd : List String) (path : String) (t : FileTree) : Prop where
  null : Path.holdsNull path = false
  size : path.utf8ByteSize ≤ pathLimit
  room : Room disk cwd path
  solid : endsInSlash path = false
  clear : Clear t (origin cwd (directory path)) (Path.names (directory path))
  named : ∃ ms l, Path.names path = ms ++ [l] ∧ Names l ∧ l.utf8ByteSize ≤ nameLimit ∧
    get? t (target cwd path l) ≠ some .directory ∧
    ¬ Crosses (origin cwd (directory path)) (Path.names (directory path)) (target cwd path l)

theorem Open.writable {p : List String} (h : Open disk cwd path t p) : Writable disk cwd path t := by
  obtain ⟨ms, l, here, hnames, hsize, hl, hshort, hms, rfl, hslash⟩ :=
    FileTree.locate_entry_cases h.locate
  obtain ⟨k, hwalk⟩ := h.walk
  obtain rfl : here = k := by
    rw [walk_directory hnames hl.1, hwalk] at hms
    exact (Except.ok.inj hms).symm
  have htarget : here ++ [l] = target cwd path l := by
    rw [target, ← FileTree.lead_of_walk hwalk]
  have hfree := h.free
  rw [htarget] at hfree
  exact ⟨h.null, hsize, h.room, hslash.symm, FileTree.clear_of_walk hwalk, ms, l, hnames, hl, hshort,
    hfree, fun hcross => hfree (hcross.directory hwalk)⟩

theorem Writable.before (h : Writable disk cwd path u) (hprepared : Prepared cwd path t u) :
    Writable disk cwd path t := by
  obtain ⟨ms, l, hnames, hl, hshort, hfree, hcross⟩ := h.named
  exact ⟨h.null, h.size, h.room, h.solid,
    h.clear.mono fun p bytes => (hprepared.file_iff p bytes).mpr,
    ms, l, hnames, hl, hshort, fun hdirectory => hfree (hprepared.holds _ hdirectory), hcross⟩

theorem Writable.opens (h : Writable disk cwd path t) (hprepared : Prepared cwd path t u)
    (hwalk : walk u (origin cwd (directory path)) (Path.names (directory path))
      = .ok (lead (origin cwd (directory path)) (Path.names (directory path)))) :
    ∃ p, Open disk cwd path u p := by
  obtain ⟨ms, l, hnames, hl, hshort, hfree, hcross⟩ := h.named
  refine ⟨target cwd path l, h.null, h.room, ⟨_, hwalk⟩, ?_, ?_⟩
  · rw [← h.solid]
    exact FileTree.locate_entry hnames h.size hl hshort ((walk_directory hnames hl.1 u).trans hwalk)
  · rcases hprepared (target cwd path l) with hsame | ⟨-, -, hpasses⟩
    · rwa [hsame]
    · exact absurd hpasses.crosses hcross

theorem Writable.run_store (h : Writable disk cwd path t) (hfresh : disk.Fresh)
    (hsteady : disk.Steady) (bytes : ByteArray) :
    ((store path bytes).run (disk.files cwd) t).1 = .ok () := by
  obtain ⟨absolute, hdirectory, hwritten⟩ := written_directory path
  have hnull := holdsNull_directory h.null
  have hmade : ∃ u, (Files.makeDirectories (directory path)).run (disk.files cwd) t = (.ok (), u) ∧
      walk u (origin cwd (directory path)) (Path.names (directory path))
        = .ok (lead (origin cwd (directory path)) (Path.names (directory path))) := by
    have husable : Files.Usable cwd (origin cwd (directory path))
        (Path.ofNames absolute (Path.names (directory path))) (Path.names (directory path)) := by
      rw [← hdirectory]
      exact ⟨hnull, h.room.size, rfl, rfl⟩
    have hmade := Files.run_makeDirectories_clear disk hwritten husable h.clear
    rwa [← hdirectory] at hmade
  obtain ⟨u, hmade, hwalk⟩ := hmade
  have hprepared := prepared_makeDirectories disk cwd path t
  rw [hmade] at hprepared
  obtain ⟨p, hopen⟩ := h.opens hprepared hwalk
  obtain ⟨n, hnone, hcreate⟩ := createTemporary_fresh hfresh hnull h.room hwalk
  rw [FileStore.run_store, hmade]
  simp only
  rw [hcreate]
  simp only
  rcases replace_cases h.room hwalk hnone bytes with ⟨f, part, -, hclosed⟩ | ⟨q, -, hreplace⟩
  · exact absurd hopen (hclosed hsteady p)
  · rw [hreplace]

theorem writable_of_run_store (h : ((store path bytes).run (disk.files cwd) t).1 = .ok ()) :
    Writable disk cwd path t := by
  have hcases := run_store_cases disk cwd path bytes t
  generalize (store path bytes).run (disk.files cwd) t = x at h hcases
  cases hcases with
  | failed => cases h
  | done hprepared hopen => exact hopen.writable.before hprepared

theorem Writable.readable (h : Writable disk cwd path t) : ¬ Unreadable cwd path t := by
  intro hunreadable
  obtain ⟨f, hread, hf⟩ := read_of_unreadable hunreadable h.null
  obtain ⟨ms, l, hnames, hl, hshort, hfree, -⟩ := h.named
  rw [FileTree.read] at hread
  rcases h.clear.walk with hwalk | hwalk
  · rw [FileTree.locate_entry hnames h.size hl hshort ((walk_directory hnames hl.1 t).trans hwalk),
      h.solid] at hread
    simp only at hread
    rw [target] at hfree
    split at hread
    · exact hf (Except.error.inj hread).symm
    · next hdirectory => exact hfree hdirectory
    · cases hread
  · rw [FileTree.locate_concat t cwd hnames h.size, walk_directory hnames hl.1, hwalk] at hread
    exact hf (Except.error.inj hread).symm

theorem Open.holds {p : List String} (h : Open disk cwd path u p)
    (hothers : ∀ q, q ≠ p → get? v q = get? u q) : Holds u v := by
  intro q hq
  have hne : q ≠ p := by
    rintro rfl
    exact h.free hq
  rw [hothers q hne, hq]

theorem Open.written {p : List String} (h : Open disk cwd path u p)
    (hp : get? v p = some (.file bytes)) (hothers : ∀ q, q ≠ p → get? v q = get? u q) :
    Open disk cwd path v p ∧ (load path).run (disk.files cwd) v = (.ok bytes, v) := by
  have hfree : get? v p ≠ some .directory := by
    rw [hp]
    nofun
  have hopen := h.mono (h.holds hothers) hfree
  refine ⟨hopen, ?_⟩
  rw [load_eq disk hopen.writable.readable, fileAt, hopen.locate]
  simp only [hp, Option.getD_some]

end DurableCalc.FileStore
