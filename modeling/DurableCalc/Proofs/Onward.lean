import DurableCalc.Proofs.Calm
import DurableCalc.Proofs.Delivery

namespace DurableCalc

namespace Simulation

open Attempt (exec exec_bind_ok exec_bind_error)

variable {w w' w'' : Simulation} {seed seed' : Int64} {lines lines' : List String}

abbrev quiet : Handler Device Simulation :=
  steady .faultless

structure Adds (w w' : Simulation) (es : List Event) : Prop where
  log : w'.log = es.reverse ++ w.log
  bytes : w'.bytes = held w.bytes es

theorem Adds.trans {es es' : List Event} (h : Adds w w' es) (h' : Adds w' w'' es') :
    Adds w w'' (es ++ es') where
  log := by rw [h'.log, h.log, List.reverse_append, List.append_assoc]
  bytes := by rw [h'.bytes, h.bytes, held_append]

theorem adds_written (w : Simulation) (bytes : ByteArray) :
    Adds w (w.written (.stored bytes) bytes) [.stored bytes] :=
  ⟨rfl, rfl⟩

structure Stands (w : Simulation) (seed : Int64) (lines : List String) : Prop where
  script : w.script = lines.map .line
  opens : ∃ trace, Journal.Opens w.bytes seed trace

structure Passes (w w' : Simulation) (shown : List String) (seed : Int64) (lines : List String) :
    Prop where
  stands : Stands w' seed lines
  adds : ∃ es, Adds w w' es ∧ shownLines es = shown

theorem Passes.refl (h : Stands w seed lines) : Passes w w [] seed lines :=
  ⟨h, [], ⟨rfl, rfl⟩, rfl⟩

theorem Passes.trans {shown shown' : List String} (h : Passes w w' shown seed lines)
    (h' : Passes w' w'' shown' seed' lines') : Passes w w'' (shown ++ shown') seed' lines' := by
  obtain ⟨es, hadds, rfl⟩ := h.adds
  obtain ⟨es', hadds', rfl⟩ := h'.adds
  exact ⟨h'.stands, es ++ es', hadds.trans hadds', shownLines_append es es'⟩

theorem passes_written (hscript : w.script = lines.map .line) {bytes : ByteArray}
    (h : ∃ trace, Journal.Opens bytes seed trace) :
    Passes w (w.written (.stored bytes) bytes) [] seed lines :=
  ⟨⟨hscript, h⟩, [.stored bytes], adds_written w bytes, rfl⟩

theorem Comes.passes {ρ : Type} {out : Except Error ρ × Simulation} {t : Turnout ρ}
    (h : Comes w out t) (hheld : t.bytes = held w.bytes t.events)
    (hopens : ∃ trace, Journal.Opens t.bytes seed trace) :
    Passes w out.2 (shownLines t.events) seed t.lines where
  stands := ⟨h.script, by rw [h.bytes]; exact hopens⟩
  adds := ⟨t.events, ⟨h.log, h.bytes.trans hheld⟩, rfl⟩

open Calm (passedOver)

theorem shownLines_passedOver (blanks : List String) (es : List Event) :
    shownLines (passedOver blanks ++ es) = shownLines es := by
  have hnothing : shownLines (passedOver blanks) = [] := by
    rw [shownLines, List.filterMap_eq_nil_iff]
    intro e he
    obtain ⟨blank, -, rfl⟩ := List.mem_map.mp he
    rfl
  rw [shownLines_append, hnothing, List.nil_append]

theorem held_passedOver (bytes : ByteArray) (blanks : List String) (es : List Event) :
    held bytes (passedOver blanks ++ es) = held bytes es := by
  induction blanks with
  | nil => rfl
  | cons blank blanks ih => exact ih

theorem opens_extended {bytes : ByteArray} {entry : String}
    (h : ∃ trace, Journal.Opens bytes seed trace) (hentry : Journal.Storable entry) :
    ∃ trace, Journal.Opens (Journal.extended bytes entry) seed trace := by
  obtain ⟨trace, hopens⟩ := h
  obtain ⟨trace', hmore⟩ := hopens.extended hentry
  exact ⟨_, hmore⟩

theorem tell_shows (hw : Stands w seed lines) {line : String} (hline : Journal.Storable line) :
    ∃ w', Passes w w' [line] seed lines ∧ exec quiet (Live.tell line) w = (.ok (), w') := by
  have hfaces : Faces .faultless w (exec quiet (Live.tell line) w) _ _ :=
    faces_tell (fun _ => rfl) line hw.script
  have hcomes := hfaces.comes
  rw [Calm.tell, if_pos hline] at hcomes
  have hpasses := hcomes.passes rfl (opens_extended hw.opens hline)
  exact ⟨(exec quiet (Live.tell line) w).2, hpasses, Prod.ext hcomes.result rfl⟩

theorem advance_moves (hw : Stands w seed lines) (next : Int64) :
    ∃ w', Passes w w' [] next lines ∧ exec quiet (Live.advance next) w = (.ok (), w') := by
  obtain ⟨trace, hopens⟩ := hw.opens
  rw [Live.advance, exec_bind_ok (Journal.exec_seed hopens)]
  by_cases hnext : seed = next
  · subst hnext
    rw [if_neg (not_not_intro rfl)]
    exact ⟨w, .refl hw, rfl⟩
  · rw [if_pos hnext, Journal.exec_replaceSeed hopens, exec_store_stored rfl rfl]
    have hopens' := Journal.opens_render_cons (Numeral.storable_decimal next)
      (Numeral.readTrimmed?_decimal next) trace
    exact ⟨w.written (.stored _) _, passes_written hw.script hopens', rfl⟩

theorem compact_keeps (hw : Stands w seed lines) :
    ∃ w', Passes w w' [] seed lines ∧ w'.bytes = Journal.render [seed.decimal] ∧
      exec quiet Journal.compact w = (.ok (), w') := by
  obtain ⟨trace, hopens⟩ := hw.opens
  rw [Journal.exec_compact hopens, exec_store_stored rfl rfl]
  exact ⟨w.written (.stored _) _, passes_written hw.script ⟨[], Session.opens_fresh seed⟩, rfl, rfl⟩

section

variable (policy : ExitPolicy) (patience n : Nat)

def onward (d : Dialogue Bool) (w : Simulation) : Except Error Unit × Simulation :=
  exec quiet (Session.rest policy patience n d) w

theorem onward_tell (hw : Stands w seed lines) {line : String} (hline : Journal.Storable line)
    (f : Unit → Dialogue Bool) :
    ∃ w', Passes w w' [line] seed lines ∧
      onward policy patience n (Dialogue.tell line >>= f) w = onward policy patience n (f ()) w' := by
  obtain ⟨w', hpasses, hexec⟩ := tell_shows hw hline
  refine ⟨w', hpasses, ?_⟩
  have hcall : Session.rest policy patience n (Dialogue.tell line >>= f)
      = Live.tell line >>= fun r => Session.rest policy patience n (f r) :=
    Session.rest_call policy patience n (.tell line) f
  rw [onward, hcall, exec_bind_ok hexec]
  rfl

theorem onward_draw (hw : Stands w seed lines) (previous : Option Int64)
    (f : Int64 → Dialogue Bool) :
    ∃ w', Passes w w' [seed.decimal] (Generator.next seed) lines ∧
      onward policy patience n (Dialogue.draw previous >>= f) w
        = onward policy patience n (f seed) w' := by
  obtain ⟨trace, hopens⟩ := hw.opens
  obtain ⟨w₁, htold, htell⟩ := tell_shows hw (Numeral.storable_decimal seed)
  obtain ⟨w₂, hmoved, hadvance⟩ := advance_moves htold.stands (Generator.next seed)
  have hcall : Session.rest policy patience n (Dialogue.draw previous >>= f) = _ :=
    Session.rest_draw policy patience n previous f
  refine ⟨w₂, htold.trans hmoved, ?_⟩
  rw [onward, hcall, exec_bind_ok (Journal.exec_seed hopens), exec_bind_ok htell,
    exec_bind_ok hadvance]
  rfl

theorem onward_boundary (hw : Stands w seed lines) :
    ∃ w', Passes w w' [] seed lines ∧
      onward policy patience (n + 1) (pure false) w
        = onward policy patience n (Session.turn patience) w' := by
  obtain ⟨w', hpasses, -, hexec⟩ := compact_keeps hw
  refine ⟨w', hpasses, ?_⟩
  have hclosing : Session.rest policy patience (n + 1) (pure false)
      = Journal.compact >>= fun _ => Session.goOn policy patience (n + 1) := rfl
  rw [onward, hclosing, exec_bind_ok hexec, Session.goOn_succ]
  rfl

end

end Simulation

end DurableCalc
