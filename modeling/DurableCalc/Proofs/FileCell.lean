import DurableCalc.Device.Pair
import DurableCalc.Device.Requests
import DurableCalc.Proofs.Execution
import DurableCalc.Proofs.FileWriting
import DurableCalc.Session

namespace DurableCalc.FileStore

open Attempt (exec)
open FileTree (Holds Passes get? locate origin)

variable {disk : Disk} {cwd : List String} {path : String} {last : Option ByteArray} {bytes : ByteArray}
  {t₀ t u v : FileTree}

def Undisturbed (cwd : List String) (path : String) (last : Option ByteArray) (t₀ t : FileTree) : Prop :=
  ∀ p, get? t p = get? t₀ p ∨
    (get? t₀ p = none ∧ get? t p = some .directory ∧
      Passes t (origin cwd (directory path)) (Path.names (directory path)) p) ∨
    ∃ bytes, last = some bytes ∧ locate t cwd path = .ok (.entry p false) ∧
      get? t p = some (.file bytes)

namespace Undisturbed

theorem start (cwd : List String) (path : String) (t : FileTree) : Undisturbed cwd path none t t :=
  fun _ => .inl rfl

theorem prepared (h : Undisturbed cwd path last t₀ t) (hprepared : Prepared cwd path t u) :
    Undisturbed cwd path last t₀ u := by
  intro p
  rcases hprepared p with hsame | ⟨hnone, hdirectory, hpasses⟩
  · rw [hsame]
    refine (h p).imp_right (Or.imp ?_ ?_)
    · exact fun ⟨hnone, hdirectory, hpasses⟩ => ⟨hnone, hdirectory, hprepared.holds.passes hpasses⟩
    · exact fun ⟨b, hlast, hlocate, hfile⟩ => ⟨b, hlast, hprepared.holds.locate hlocate, hfile⟩
  · rcases h p with hsame | ⟨-, hthere, -⟩ | ⟨b, -, -, hfile⟩
    · exact .inr (.inl ⟨hsame.symm.trans hnone, hdirectory, hpasses⟩)
    · rw [hnone] at hthere
      cases hthere
    · rw [hnone] at hfile
      cases hfile

theorem alike (h : Undisturbed cwd path last t₀ t) (hsame : ∀ p, get? u p = get? t p) :
    Undisturbed cwd path last t₀ u := by
  have hholds : Holds t u := fun p hp => (hsame p).trans hp
  intro p
  rw [hsame]
  refine (h p).imp_right (Or.imp ?_ ?_)
  · exact fun ⟨hnone, hdirectory, hpasses⟩ => ⟨hnone, hdirectory, hholds.passes hpasses⟩
  · exact fun ⟨b, hlast, hlocate, hfile⟩ => ⟨b, hlast, hholds.locate hlocate, hfile⟩

theorem written {p : List String} (h : Undisturbed cwd path last t₀ u) (hopen : Open disk cwd path u p)
    (hp : get? v p = some (.file bytes)) (hothers : ∀ q, q ≠ p → get? v q = get? u q) :
    Undisturbed cwd path (some bytes) t₀ v := by
  have hlocate := (hopen.written hp hothers).1.locate
  intro q
  by_cases hq : q = p
  · rw [hq]
    exact .inr (.inr ⟨bytes, rfl, hlocate, hp⟩)
  · rw [hothers q hq]
    rcases h q with hsame | ⟨hnone, hdirectory, hpasses⟩ | ⟨b, -, hother, -⟩
    · exact .inl hsame
    · exact .inr (.inl ⟨hnone, hdirectory, (hopen.holds hothers).passes hpasses⟩)
    · exact absurd (hopen.place hother).symm hq

theorem unwritten (h : Undisturbed cwd path none t₀ t) : Prepared cwd path t₀ t := by
  intro p
  rcases h p with hsame | hmade | ⟨b, hlast, -⟩
  · exact .inl hsame
  · exact .inr hmade
  · cases hlast

end Undisturbed

theorem Prepared.fileAt (h : Prepared cwd path t u) (hfile : fileAt cwd path t = some bytes) :
    FileStore.fileAt cwd path u = some bytes := by
  rw [FileStore.fileAt] at hfile ⊢
  split at hfile
  · next p slash hlocate =>
      rw [h.holds.locate hlocate]
      split at hfile
      · next b hnode =>
          obtain rfl := Option.some.inj hfile
          simp only [(h.file_iff p b).mpr hnode]
      · cases hfile
  · cases hfile

def Settled (disk : Disk) (cwd : List String) (path : String) (t : FileTree) (bytes : ByteArray) : Prop :=
  ∃ p, Open disk cwd path t p ∧ get? t p = some (.file bytes)

theorem Settled.load (h : Settled disk cwd path t bytes) :
    (FileStore.load path).run (disk.files cwd) t = (.ok bytes, t) := by
  obtain ⟨p, hopen, hp⟩ := h
  exact (hopen.written hp fun _ _ => rfl).2

theorem settled_of_run_store (h : ((store path bytes).run (disk.files cwd) t).1 = .ok ()) :
    Settled disk cwd path ((store path bytes).run (disk.files cwd) t).2 bytes := by
  have hcases := run_store_cases disk cwd path bytes t
  generalize (store path bytes).run (disk.files cwd) t = y at h hcases ⊢
  cases hcases with
  | failed => cases h
  | done _ hopen hp hothers => exact ⟨_, (hopen.written hp hothers).1, hp⟩

theorem Settled.grown (h : Settled disk cwd path t bytes) (hprepared : Prepared cwd path t u)
    (hsame : ∀ p, get? v p = get? u p) : Settled disk cwd path v bytes := by
  obtain ⟨p, hopen, hp⟩ := h
  have hfile : get? v p = some (.file bytes) := (hsame p).trans ((hprepared.file_iff p bytes).mpr hp)
  have hholds : Holds t v := fun q hq => (hsame q).trans (hprepared.holds q hq)
  refine ⟨p, hopen.mono hholds ?_, hfile⟩
  rw [hfile]
  nofun

structure Kept (disk : Disk) (cwd : List String) (path : String) (t₀ : FileTree)
    (x : Option ByteArray × FileTree) : Prop where
  undisturbed : Undisturbed cwd path x.1 t₀ x.2
  written : ∀ bytes, x.1 = some bytes → Settled disk cwd path x.2 bytes

theorem load_keeps (disk : Disk) (cwd : List String) (path : String) (t : FileTree) :
    ((load path).run (disk.files cwd) t).2 = t := by
  rw [run_load]

theorem Kept.serve {x : Option ByteArray × FileTree} (h : Kept disk cwd path t₀ x)
    (q : Storage.Request) :
    Kept disk cwd path t₀ (Storage.serve (storage (disk.files cwd) path) x q) := by
  obtain ⟨last, t⟩ := x
  cases q with
  | load =>
      have hsame : Storage.serve (storage (disk.files cwd) path) (last, t) .load = (last, t) :=
        congrArg (Prod.mk last) (load_keeps disk cwd path t)
      rwa [hsame]
  | store bytes =>
      have hcases := run_store_cases disk cwd path bytes t
      have hstore : (storage (disk.files cwd) path).store bytes t
          = (store path bytes).run (disk.files cwd) t := rfl
      rw [Storage.serve, hstore]
      generalize (store path bytes).run (disk.files cwd) t = y at hcases ⊢
      cases hcases with
      | failed hprepared hsame =>
          refine ⟨(h.undisturbed.prepared hprepared).alike hsame, fun b hb => ?_⟩
          exact (h.written b hb).grown hprepared hsame
      | done hprepared hopen hp hothers =>
          refine ⟨(h.undisturbed.prepared hprepared).written hopen hp hothers, fun b hb => ?_⟩
          obtain rfl := Option.some.inj hb
          exact ⟨_, (hopen.written hp hothers).1, hp⟩

theorem kept_after (disk : Disk) (cwd : List String) (path : String) (qs : List Storage.Request)
    (t : FileTree) :
    Kept disk cwd path t ((storage (disk.files cwd) path).after qs t) := by
  have hall (x : Option ByteArray × FileTree) (h : Kept disk cwd path t x) :
      Kept disk cwd path t (qs.foldl (Storage.serve (storage (disk.files cwd) path)) x) := by
    induction qs generalizing x with
    | nil => exact h
    | cons q qs ih => exact ih _ (h.serve q)
  exact hall (none, t) ⟨.start cwd path t, nofun⟩

theorem Writable.serve (hfresh : disk.Fresh) (hsteady : disk.Steady) (h : Writable disk cwd path t)
    (q : Storage.Request) :
    Writable disk cwd path (Storage.serve (storage (disk.files cwd) path) (none, t) q).2 := by
  cases q with
  | load =>
      rw [Storage.serve_load]
      exact (load_keeps disk cwd path t).symm ▸ h
  | store bytes =>
      obtain ⟨p, hopen, -⟩ := settled_of_run_store (h.run_store hfresh hsteady bytes)
      rw [Storage.serve_store]
      exact hopen.writable

theorem Writable.accepts (hfresh : disk.Fresh) (hsteady : disk.Steady)
    (h : Writable disk cwd path t) : Storage.Accepts (storage (disk.files cwd) path) t := by
  intro qs bytes
  induction qs generalizing t with
  | nil => exact h.run_store hfresh hsteady bytes
  | cons q qs ih =>
      rw [Storage.after_cons]
      exact ih (h.serve hfresh hsteady q)

structure Stands (disk : Disk) (cwd : List String) (path : String) (t : FileTree) (bytes : ByteArray) :
    Prop where
  accepts : Storage.Accepts (storage (disk.files cwd) path) t
  load : (FileStore.load path).run (disk.files cwd) t = (.ok bytes, t)

theorem Stands.store (h : Stands disk cwd path t bytes) (written : ByteArray) :
    ∃ v, (FileStore.store path written).run (disk.files cwd) t = (.ok (), v) ∧
      Stands disk cwd path v written := by
  have hsucceeds : ((FileStore.store path written).run (disk.files cwd) t).1 = .ok () :=
    h.accepts [] written
  have hlater := h.accepts.serve (.store written)
  rw [Storage.serve_store] at hlater
  exact ⟨_, Prod.ext hsucceeds rfl, hlater, (settled_of_run_store hsucceeds).load⟩

variable {σ α : Type}

theorem run_beside (user : Console σ) (p : Program Device α) (s : σ)
    (h : Stands disk cwd path t bytes) :
    let real := p.run (Device.handler user.first (storage (disk.files cwd) path).second) (s, t)
    let ideal := p.run (Device.handler user.first Storage.cell.second) (s, bytes)
    real.1 = ideal.1 ∧ real.2.1 = ideal.2.1 ∧ Stands disk cwd path real.2.2 ideal.2.2 := by
  induction p generalizing s t bytes with
  | done a => exact ⟨rfl, rfl, h⟩
  | call c next ih =>
      cases c with
      | readLine => exact ih _ _ h
      | showLine line => exact ih _ _ h
      | load =>
          have hreply : Device.handler user.first (storage (disk.files cwd) path).second .load (s, t)
              = (.ok bytes, (s, t)) :=
            congrArg (fun y => (y.1, (s, y.2))) h.load
          simp only [Program.run_call, hreply]
          exact ih (.ok bytes) s h
      | store written =>
          obtain ⟨v, hstore, hstands⟩ := h.store written
          have hreply : Device.handler user.first (storage (disk.files cwd) path).second
              (.store written) (s, t) = (.ok (), (s, v)) :=
            congrArg (fun y => (y.1, (s, y.2))) hstore
          simp only [Program.run_call, hreply]
          exact ih (.ok ()) s hstands

/-- What is read is what the last write that succeeded wrote, or what the file holds that has been there
from the start, or nothing if it is missing. As long as its writes succeed, which on a steady disk with fresh
names they do just if the path can be written to, it serves a session as the cell does. -/
theorem behaves_as_cell (disk : Disk) (cwd : List String) (path : String) (qs : List Storage.Request)
    (t₀ : FileTree) (user : Console σ) (s : σ) (settings : Settings) (patience : Nat) :
    let st := storage (disk.files cwd) path
    let last := (st.after qs t₀).1
    let t := (st.after qs t₀).2
    Undisturbed cwd path last t₀ t ∧
    (st.load t).2 = t ∧
    ((∃ f, (st.load t).1 = .error f) ↔ Unreadable cwd path t) ∧
    (∀ bytes, (st.load t).1 = .ok bytes →
      bytes = (last.or (fileAt cwd path t)).getD ByteArray.empty) ∧
    (∀ bytes, last = some bytes → (st.load t).1 = .ok bytes) ∧
    (∀ bytes, last = none → fileAt cwd path t₀ = some bytes → fileAt cwd path t = some bytes) ∧
    (∀ bytes, (st.store bytes t).1 = .ok () → Writable disk cwd path t) ∧
    (disk.Fresh → disk.Steady → (st.Accepts t ↔ Writable disk cwd path t)) ∧
    (st.Accepts t → ∃ initial, (st.load t).1 = .ok initial ∧
      let real := exec (Device.handler user.first st.second) (Session.run settings patience) (s, t)
      let ideal := exec (Device.handler user.first Storage.cell.second) (Session.run settings patience)
        (s, initial)
      real.1 = ideal.1 ∧ real.2.1 = ideal.2.1 ∧ (st.load real.2.2).1 = .ok ideal.2.2) := by
  have hkept := kept_after disk cwd path qs t₀
  intro st last t
  have hwritable (haccepts : st.Accepts t) : Writable disk cwd path t :=
    writable_of_run_store (haccepts [] ByteArray.empty)
  refine ⟨hkept.undisturbed, load_keeps disk cwd path t, load_fails_iff disk cwd path t, ?_, ?_, ?_,
    fun _ => writable_of_run_store, fun hfresh hsteady => ?_, fun haccepts => ?_⟩
  · intro bytes hbytes
    cases hlast : last with
    | none =>
        have hreadable : ¬ Unreadable cwd path t := by
          intro h
          obtain ⟨f, hf⟩ := (load_fails_iff disk cwd path t).mpr h
          cases hbytes.symm.trans hf
        have hload := congrArg Prod.fst (load_eq disk hreadable)
        exact Except.ok.inj (hbytes.symm.trans hload)
    | some b =>
        have hload := congrArg Prod.fst (hkept.written b hlast).load
        exact Except.ok.inj (hbytes.symm.trans hload)
  · exact fun bytes hlast => congrArg Prod.fst (hkept.written bytes hlast).load
  · intro bytes hlast hfile
    have hundisturbed : Undisturbed cwd path none t₀ t := hlast ▸ hkept.undisturbed
    exact Prepared.fileAt hundisturbed.unwritten hfile
  · exact ⟨hwritable, fun h => h.accepts hfresh hsteady⟩
  · have hload := load_eq disk (hwritable haccepts).readable
    refine ⟨_, congrArg Prod.fst hload, ?_⟩
    obtain ⟨hresult, huser, hstands⟩ :=
      run_beside user (Session.run settings patience).run s ⟨haccepts, hload⟩
    exact ⟨hresult, huser, congrArg Prod.fst hstands.load⟩

theorem behaves_as_cell_missingParent :
    let t₀ : FileTree := [(["d"], .directory), (["f"], .file "x".toUTF8)]
    let user := Simulation.start [.line "rand", .line "2", .line "exit"] ByteArray.empty
    let st := storage (Disk.standard.files []) "d/a/journal"
    let t := (st.after [.load] t₀).2
    let real := exec (Device.handler (Simulation.console .faultless).first st.second)
      (Session.run ⟨420, .compact⟩ 5) (user, t)
    let full : Disk :=
      { Disk.standard with
        refusedWrite := fun _ _ bytes =>
          if 5 < bytes.size then some (.other "no space left", bytes.extract 0 5) else none }
    let st' := storage (full.files []) "d/a/journal"
    let t' := (st'.after [.store "420\n".toUTF8, .store "420\nadd\n".toUTF8] t₀).2
    Disk.standard.Fresh ∧ Disk.standard.Steady ∧ FileTree.get? t ["d", "a"] = none ∧
      Writable .standard [] "d/a/journal" t ∧ st.Accepts t ∧
      real.1 = .ok () ∧ (st.load real.2.2).1 = .ok (Journal.render ["528003995"]) ∧
      (st'.store "420\nadd\n".toUTF8 (st'.after [.store "420\n".toUTF8] t₀).2).1
        = .error (.other "no space left") ∧
      (st'.load t').1 = .ok "420\n".toUTF8 ∧
      Undisturbed [] "d/a/journal" (some "420\n".toUTF8) t₀ t' := by
  intro t₀ user st t real full st' t'
  obtain ⟨-, -, -, -, -, -, hwrites, haccepts, hserves⟩ :=
    behaves_as_cell .standard [] "d/a/journal" [.load] t₀ (Simulation.console .faultless) user
      ⟨420, .compact⟩ 5
  have hstored : (st.store ByteArray.empty t).1 = .ok () := by decide +kernel
  have hwritable := hwrites _ hstored
  have haccepted := (haccepts Disk.fresh_standard Disk.steady_standard).mpr hwritable
  obtain ⟨initial, hload, hresult, -, hleft⟩ := hserves haccepted
  have hmissing : (st.load t).1 = .ok ByteArray.empty := by decide +kernel
  obtain rfl := Except.ok.inj (hload.symm.trans hmissing)
  have hideal :
      let ideal := exec (Device.handler (Simulation.console .faultless).first Storage.cell.second)
        (Session.run ⟨420, .compact⟩ 5) (user, ByteArray.empty)
      ideal.1 = .ok () ∧ ideal.2.2 = Journal.render ["528003995"] := by decide +kernel
  rw [hideal.1] at hresult
  rw [hideal.2] at hleft
  obtain ⟨hundisturbed, -, -, -, hread, -⟩ :=
    behaves_as_cell full [] "d/a/journal" [.store "420\n".toUTF8, .store "420\nadd\n".toUTF8] t₀
      (Simulation.console .faultless) user ⟨420, .compact⟩ 5
  have hlast : (st'.after [.store "420\n".toUTF8, .store "420\nadd\n".toUTF8] t₀).1
      = some "420\n".toUTF8 := by decide +kernel
  rw [hlast] at hundisturbed
  refine ⟨Disk.fresh_standard, Disk.steady_standard, by decide +kernel, hwritable,
    haccepted, hresult, ?_, by decide +kernel, hread _ hlast, hundisturbed⟩
  dsimp only [real, st, t]
  exact hleft

theorem load_longName {n : String} (hn : Path.Proper n) (hnull : Path.holdsNull n = false)
    (hlong : FileTree.nameLimit < n.utf8ByteSize) (hsize : n.utf8ByteSize ≤ FileTree.pathLimit)
    (disk : Disk) (cwd : List String) (t : FileTree) :
    Path.names n = [n] ∧ FileTree.isDirectory cwd n t = false ∧
      ((storage (disk.files cwd) n).load t).1 = .error .nameTooLong := by
  have hnames : Path.names n = [n] := by
    have hnames := Path.names_ofNames false (List.forall_mem_singleton.mpr hn)
    rwa [Path.ofNames, if_neg Bool.false_ne_true, String.empty_append,
      String.intercalate_singleton] at hnames
  have hdots : ¬ (n = "." ∨ n = "..") := by
    rintro (rfl | rfl) <;> exact absurd hlong (by decide)
  have hconcat : Path.names n = [] ++ [n] := hnames
  have hlocate := FileTree.locate_concat t cwd hconcat hsize
  simp only [FileTree.walk, if_neg hdots, if_pos hlong] at hlocate
  refine ⟨hnames, by rw [FileTree.isDirectory, hlocate], ?_⟩
  change ((load n).run (disk.files cwd) t).1 = _
  rw [run_load, hnull, if_neg Bool.false_ne_true, FileTree.read, hlocate]

theorem load_fails_unhindered :
    let t : FileTree := [(["f"], .file "x".toUTF8)]
    ∀ x ∈ [("f/", Failure.notADirectory), ("\x00", .nullInName),
        (String.ofList (List.replicate 256 'a'), .nameTooLong)],
      FileTree.isDirectory [] x.1 t = false ∧ (Path.names x.1).dropLast = [] ∧
        ((storage (FileTree.files []) x.1).load t).1 = .error x.2 := by
  intro t
  rw [List.forall_mem_cons, List.forall_mem_cons, List.forall_mem_singleton]
  refine ⟨⟨by decide, by decide, rfl⟩, ⟨by decide, by decide, rfl⟩, ?_⟩
  have hsize : (String.ofList (List.replicate 256 'a')).utf8ByteSize = 256 := by decide +kernel
  have hproper : Path.Proper (String.ofList (List.replicate 256 'a')) := by
    refine ⟨fun hempty => ?_, ?_⟩
    · rw [hempty] at hsize
      cases hsize
    · rw [String.toList_ofList]
      exact fun hslash => absurd (List.eq_of_mem_replicate hslash) (by decide)
  have hnull : Path.holdsNull (String.ofList (List.replicate 256 'a')) = false := by
    rw [Path.holdsNull, String.toList_ofList, Bool.eq_false_iff, ne_eq, List.contains_iff_mem]
    exact fun hmem => absurd (List.eq_of_mem_replicate hmem) (by decide)
  obtain ⟨hnames, hdirectory, hload⟩ := load_longName hproper hnull
    (by rw [hsize]; decide) (by rw [hsize]; decide) .standard [] t
  exact ⟨hdirectory, by rw [hnames]; rfl, hload⟩

end DurableCalc.FileStore
