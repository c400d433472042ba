import DurableCalc.Proofs.Ledger
import DurableCalc.Proofs.RoundTrip

namespace DurableCalc

namespace Text

def fringe (s : String) : String :=
  String.ofList (s.toList.reverse.takeWhile (· ≠ '\n')).reverse

theorem newline_not_mem_fringe (s : String) : '\n' ∉ (fringe s).toList := by
  intro h
  rw [fringe, String.toList_ofList, List.mem_reverse] at h
  simpa using List.mem_takeWhile_imp h

theorem fringe_newline (s : String) : fringe (s ++ "\n") = "" := by
  simp [fringe]

theorem exists_append_return {s : String} (h : s.toList.getLast? = some '\r') :
    ∃ t, s = t ++ "\r" := by
  obtain ⟨cs, hcs⟩ := List.getLast?_eq_some_iff.mp h
  refine ⟨String.ofList cs, ?_⟩
  rw [← String.ofList_toList (s := s), hcs, String.ofList_append]

theorem chop_append_return (s : String) : chop (s ++ "\r") = s := by
  have hreturn : ("\r" : String).toList = ['\r'] := rfl
  rw [chop, String.toList_append, hreturn, chopReturn_append_return, String.ofList_toList]

theorem exists_whole (s : String) :
    ∃ whole, s = whole ++ fringe s ∧ (whole = "" ∨ ∃ t, whole = t ++ "\n") := by
  have hsplit := List.takeWhile_append_dropWhile (p := (· ≠ '\n')) (l := s.toList.reverse)
  have hs : s = String.ofList (s.toList.reverse.dropWhile (· ≠ '\n')).reverse ++ fringe s := by
    rw [fringe, ← String.ofList_append, ← List.reverse_append, hsplit, List.reverse_reverse,
      String.ofList_toList]
  refine ⟨_, hs, ?_⟩
  cases hrest : s.toList.reverse.dropWhile (· ≠ '\n') with
  | nil => exact .inl rfl
  | cons c cs =>
      have hne : s.toList.reverse.dropWhile (· ≠ '\n') ≠ [] := by
        rw [hrest]
        exact List.cons_ne_nil c cs
      have hc := List.head_dropWhile_not (· ≠ '\n') hne
      simp only [hrest, List.head_cons, decide_eq_false_iff_not, not_not] at hc
      refine .inr ⟨String.ofList cs.reverse, ?_⟩
      rw [hc, List.reverse_cons, String.ofList_append]

theorem encode_cut {cs : List Char} {before after : List UInt8}
    (h : cs.flatMap String.utf8EncodeChar = before ++ 10 :: after) :
    ∃ ds es : List Char, before = ds.flatMap String.utf8EncodeChar ∧
      after = es.flatMap String.utf8EncodeChar := by
  induction cs generalizing before with
  | nil => simp at h
  | cons c cs ih =>
      rw [List.flatMap_cons] at h
      rcases List.append_eq_append_iff.mp h with ⟨bs, rfl, hcs⟩ | ⟨bs, hc, hcs⟩
      · obtain ⟨ds, es, rfl, rfl⟩ := ih hcs
        exact ⟨c :: ds, es, rfl, rfl⟩
      · cases bs with
        | nil =>
            have hrest : cs.flatMap String.utf8EncodeChar = [] ++ 10 :: after := hcs.symm
            obtain ⟨ds, es, hds, rfl⟩ := ih hrest
            refine ⟨c :: ds, es, ?_, rfl⟩
            rw [List.flatMap_cons, ← hds, hc, List.append_nil, List.append_nil]
        | cons b bs =>
            obtain ⟨rfl, rfl⟩ := List.cons.inj hcs
            -- the byte is a character by itself, so that nothing of it is left on either side
            obtain rfl := eq_newline_of_mem_encode (c := c) (by rw [hc]; simp)
            have hone : String.utf8EncodeChar '\n' = [10] := by decide
            rw [hone] at hc
            cases before with
            | nil =>
                obtain ⟨-, rfl⟩ := List.cons.inj hc
                exact ⟨[], cs, rfl, rfl⟩
            | cons b before => simp at hc

theorem toUTF8_ofList (cs : List Char) :
    (String.ofList cs).toUTF8 = (cs.flatMap String.utf8EncodeChar).toByteArray := by
  rw [String.toUTF8_eq_toByteArray, ← String.utf8Encode_toList, String.toList_ofList]
  rfl

theorem toUTF8_cut {s : String} {before after : ByteArray}
    (h : s.toUTF8 = before.push 10 ++ after) :
    ∃ t u : String, before = t.toUTF8 ∧ after = u.toUTF8 := by
  have hlist (bs : ByteArray) : bs.data.toList.toByteArray = bs := by
    apply ByteArray.ext
    rw [List.data_toByteArray]
  rw [← String.ofList_toList (s := s), toUTF8_ofList] at h
  have hcut : s.toList.flatMap String.utf8EncodeChar
      = before.data.toList ++ 10 :: after.data.toList := by
    simpa using congrArg (fun bs : ByteArray => bs.data.toList) h
  obtain ⟨ds, es, hds, hes⟩ := encode_cut hcut
  refine ⟨String.ofList ds, String.ofList es, ?_, ?_⟩
  · rw [toUTF8_ofList, ← hds, hlist]
  · rw [toUTF8_ofList, ← hes, hlist]

end Text

namespace Journal

open Text (isBlank chop fringe)

theorem entriesOf_open {line : String} (h : '\n' ∉ line.toList) :
    entriesOf line = if isBlank line then [] else [line] := by
  by_cases hempty : line = ""
  · subst hempty
    rfl
  · have hne : line.toList ≠ [] := fun hnil => hempty (String.toList_inj.mp hnil)
    have hlines : Text.lines line = [line] := by
      rw [Text.lines, Text.linesFrom_unterminated h [] hne]
      simp
    rw [entriesOf, hlines, List.filter_cons]
    cases isBlank line <;> rfl

theorem entriesOf_whole_append {whole : String} (h : whole = "" ∨ ∃ t, whole = t ++ "\n")
    (s : String) : entriesOf (whole ++ s) = entriesOf whole ++ entriesOf s := by
  rcases h with rfl | ⟨t, rfl⟩
  · rw [String.empty_append]
    rfl
  · exact entriesOf_append t s

theorem parse_render_tail {e first : String} (he : Storable e) {bytes : ByteArray}
    {trace : List String} (h : parse bytes = .ok (first :: trace)) :
    parse (render (e :: trace)) = .ok (e :: trace.map chop) := by
  obtain ⟨text, -, htext⟩ := exists_text_of_parse h
  have hwhole (e' : String) (he' : e' ∈ trace) : isBlank e' = false ∧ '\n' ∉ e'.toList := by
    have hmem : e' ∈ entriesOf text := by
      rw [htext]
      exact List.mem_cons_of_mem first he'
    exact whole_of_mem_entriesOf hmem
  have hblank : ∀ e' ∈ e :: trace, isBlank e' = false :=
    List.forall_mem_cons.mpr ⟨he.recoverable.1, fun e' he' => (hwhole e' he').1⟩
  have hlines : ∀ e' ∈ e :: trace, '\n' ∉ e'.toList :=
    List.forall_mem_cons.mpr ⟨he.recoverable.2.1, fun e' he' => (hwhole e' he').2⟩
  rw [parse_render_chop hblank hlines, List.map_cons, Text.chop_eq_self_iff.mpr he.recoverable.2.2]

def Frayed (bytes : ByteArray) : Prop :=
  ∃ text : String, bytes = text.toUTF8 ∧ isBlank (fringe text) = false ∧
    (fringe text).toList.getLast? = some '\r'

theorem frayed_toUTF8 {text : String} :
    Frayed text.toUTF8 ↔
      isBlank (fringe text) = false ∧ (fringe text).toList.getLast? = some '\r' := by
  constructor
  · rintro ⟨text', hsame, h⟩
    have heq : text' = text := by
      rw [String.toUTF8_eq_toByteArray, String.toUTF8_eq_toByteArray] at hsame
      exact (String.toByteArray_inj.mp hsame).symm
    rwa [heq] at h
  · exact fun h => ⟨text, rfl, h⟩

theorem eq_empty_or_push (bytes : ByteArray) :
    bytes = ByteArray.empty ∨ ∃ (before : ByteArray) (b : UInt8), bytes = before.push b := by
  have hbytes : bytes = bytes.data.toList.toByteArray := by
    apply ByteArray.ext
    rw [List.data_toByteArray]
  obtain h | ⟨bs, b, h⟩ := bytes.data.toList.eq_nil_or_concat
  · refine .inl ?_
    rw [hbytes, h]
    rfl
  · refine .inr ⟨bs.toByteArray, b, ?_⟩
    rw [hbytes, h, List.concat_eq_append, List.toByteArray_append,
      ByteArray.append_toByteArray_singleton]

theorem exists_text_of_extended {bytes : ByteArray} {entry text : String}
    (h : extended bytes entry = text.toUTF8) : ∃ t : String, bytes = t.toUTF8 := by
  rcases eq_empty_or_push bytes with rfl | ⟨before, b, rfl⟩
  · exact ⟨"", rfl⟩
  · rw [extended, terminated_push] at h
    split at h
    · next hb =>
        subst hb
        obtain ⟨t, -, rfl, -⟩ := Text.toUTF8_cut h.symm
        exact ⟨t ++ "\n", push_terminator t⟩
    · obtain ⟨t, -, ht, -⟩ := Text.toUTF8_cut h.symm
      exact ⟨t, ht⟩

theorem parse_extended_fringe {entry : String} (hentry : Storable entry) (text : String) :
    ∃ before, entriesOf text = before ++ (if isBlank (fringe text) then [] else [fringe text]) ∧
      parse (extended text.toUTF8 entry)
        = .ok (before ++ (if isBlank (fringe text) then [] else [chop (fringe text)]) ++ [entry]) := by
  rcases terminated_toUTF8 text with ⟨rfl, ht⟩ | ⟨start, rfl, ht⟩ | ht
  · refine ⟨[], rfl, ?_⟩
    rw [extended, ht]
    exact parse_render (List.forall_mem_singleton.mpr hentry)
  · refine ⟨entriesOf (start ++ "\n"), ?_, ?_⟩
    · simp [Text.fringe_newline, isBlank]
    · rw [extended, ht, parse_newline_append hentry]
      simp [Text.fringe_newline, isBlank]
  · obtain ⟨whole, htext, hwhole⟩ := Text.exists_whole text
    have hline := Text.newline_not_mem_fringe text
    refine ⟨entriesOf whole, ?_, ?_⟩
    · rw [← entriesOf_open hline, ← entriesOf_whole_append hwhole, ← htext]
    · have hended : entriesOf (text ++ "\n") = entriesOf whole ++ entriesOf (fringe text ++ "\n") := by
        rw [← entriesOf_whole_append hwhole, ← String.append_assoc, ← htext]
      rw [extended, ht, parse_newline_append hentry, hended, entriesOf_line_chop hline]

end Journal

namespace Simulation

open Journal (Answer)

variable {s : Schedule} {w : Simulation}

theorem yield_of_loaded {α : Type} {k : ByteArray → Attempt α} {a : α}
    (h : (yield s (Attempt.load >>= k) w).1 = .ok a) :
    yield s (Attempt.load >>= k) w = yield s (k w.bytes) w.loaded := by
  rw [yield_load_bind] at h ⊢
  split at h
  · cases h
  · next hload => exact if_neg hload

theorem yield_of_stored {operation : Operation} {bytes : ByteArray} {a : Answer}
    (h : (yield s ((fun _ => a) <$> Attempt.store operation bytes) w).1 = .ok a) :
    (yield s ((fun _ => a) <$> Attempt.store operation bytes) w).2 = bytes := by
  rw [yield, ← bind_pure_comp, Attempt.exec_bind, Attempt.exec_store] at h ⊢
  simp only [device, Device.handler, storage, store] at h ⊢
  by_cases hloses : s.loses w.writes = true
  · simp [hloses, Attempt.blame] at h
  · by_cases hcrashes : s.crashes w.writes = true
    · simp [hloses, hcrashes, Attempt.blame] at h
    · simp [hloses, hcrashes, Attempt.blame, note]

end Simulation

namespace Journal

open Simulation (yield yield_of_loaded yield_of_stored)
open Text (isBlank chop fringe)

def read (bytes : ByteArray) : Except Error Answer :=
  (Request.onBytes (.entries, .faultless) bytes).1

theorem read_eq_ok_iff {bytes : ByteArray} {es : List String} :
    read bytes = .ok (.entries es) ↔ parse bytes = .ok es := by
  have hread : read bytes = (parse bytes).map Answer.entries := by
    show (yield .faultless (Answer.entries <$> entries) (Simulation.start [] bytes)).1 = _
    rw [entries, map_bind, Simulation.yield_load_bind]
    show (yield .faultless (Answer.entries <$> Attempt.of (parse bytes)) _).1 = _
    cases parse bytes <;> rfl
  rw [hread]
  cases parse bytes with
  | error e => refine ⟨fun h => ?_, fun h => ?_⟩ <;> cases h
  | ok es' => simp [Except.map]

theorem stored_append {s : Schedule} {bytes : ByteArray} {entry : String}
    (h : (Request.onBytes (.append entry, s) bytes).1 = .ok .done) :
    Storable entry ∧ (Request.onBytes (.append entry, s) bytes).2 = extended bytes entry := by
  by_cases hentry : Storable entry
  · refine ⟨hentry, ?_⟩
    have hvalid : Attempt.of (validate entry) = pure () := by
      rw [validate_eq_ok_iff.mpr hentry]
      rfl
    have hattempt : (Request.append entry).attempt = Attempt.load >>= fun bytes =>
        (fun _ => .done) <$> Attempt.store .appending (extended bytes entry) := by
      rw [Request.attempt, append, hvalid, pure_bind, map_bind]
    have hyield : (yield s (Request.append entry).attempt (Simulation.start [] bytes)).1
        = .ok .done := h
    show (yield s (Request.append entry).attempt (Simulation.start [] bytes)).2 = _
    rw [hattempt] at hyield ⊢
    have hloaded := yield_of_loaded hyield
    rw [hloaded] at hyield ⊢
    exact yield_of_stored hyield
  · have hinvalid : Attempt.of (validate entry) = throw (.invalidEntry entry) := by
      rw [validate, if_neg hentry]
      rfl
    have hrefused : (Request.onBytes (.append entry, s) bytes).1 = .error (.invalidEntry entry) := by
      show (yield s (Request.append entry).attempt (Simulation.start [] bytes)).1 = _
      rw [Request.attempt, append, hinvalid]
      rfl
    rw [hrefused] at h
    cases h

theorem stored_replaceSeed {s : Schedule} {bytes : ByteArray} {seed : Int64}
    (h : (Request.onBytes (.replaceSeed seed, s) bytes).1 = .ok .done) :
    ∃ e trace, parse bytes = .ok (e :: trace) ∧
      (Request.onBytes (.replaceSeed seed, s) bytes).2 = render (seed.decimal :: trace) := by
  have hyield : (yield s (Request.replaceSeed seed).attempt (Simulation.start [] bytes)).1
      = .ok .done := h
  show ∃ e trace, _ ∧ (yield s (Request.replaceSeed seed).attempt (Simulation.start [] bytes)).2 = _
  rw [Request.attempt, replaceSeed, map_bind, entries, bind_assoc] at hyield ⊢
  have hloaded := yield_of_loaded hyield
  rw [hloaded] at hyield ⊢
  change (yield s (Attempt.of (parse bytes) >>= _) _).1 = _ at hyield
  show ∃ e trace, _ ∧ (yield s (Attempt.of (parse bytes) >>= _) _).2 = _
  cases hparse : parse bytes with
  | error e =>
      rw [hparse] at hyield
      cases hyield
  | ok es =>
      rw [hparse] at hyield
      cases es with
      | nil => cases hyield
      | cons e trace => exact ⟨e, trace, rfl, yield_of_stored hyield⟩

/-- A journal may be stored in any bytes. To change its seed takes a carriage return from the end of
every other entry that ends in one; to add an entry takes it from the last one, if the bytes end with
it; and neither changes anything else. Bytes that no entries can be read of stay so. -/
theorem read_rewritten (s : Schedule) (bytes : ByteArray) :
    (∀ es seed, read bytes = .ok (.entries es) →
      (Request.onBytes (.replaceSeed seed, s) bytes).1 = .ok .done →
      let after := read (Request.onBytes (.replaceSeed seed, s) bytes).2
      after = .ok (.entries (seed.decimal :: es.tail.map chop)) ∧
        (after = .ok (.entries (seed.decimal :: es.tail)) ↔
          ∀ e ∈ es.tail, e.toList.getLast? ≠ some '\r')) ∧
    (∀ es entry, read bytes = .ok (.entries es) →
      (Request.onBytes (.append entry, s) bytes).1 = .ok .done →
      let after := read (Request.onBytes (.append entry, s) bytes).2
      (¬ Frayed bytes → after = .ok (.entries (es ++ [entry]))) ∧
        (Frayed bytes → ∃ before line, es = before ++ [line ++ "\r"] ∧
          after = .ok (.entries (before ++ [line, entry])))) ∧
    (∀ entry, (∀ es, read bytes ≠ .ok (.entries es)) →
      (Request.onBytes (.append entry, s) bytes).1 = .ok .done →
      ∀ es, read (Request.onBytes (.append entry, s) bytes).2 ≠ .ok (.entries es)) := by
  refine ⟨fun es seed hread hdone => ?_, fun es entry hread hdone => ?_,
    fun entry hunread hdone es hread => ?_⟩
  · obtain ⟨e, trace, hparse, hstored⟩ := stored_replaceSeed hdone
    obtain rfl : e :: trace = es := Except.ok.inj (hparse.symm.trans (read_eq_ok_iff.mp hread))
    have hafter := parse_render_tail (Numeral.storable_decimal seed) hparse
    rw [hstored, List.tail_cons]
    refine ⟨read_eq_ok_iff.mpr hafter, ?_⟩
    rw [read_eq_ok_iff, hafter, Except.ok.injEq, List.cons.injEq, ← map_chop_eq_self_iff]
    exact and_iff_right rfl
  · obtain ⟨hentry, hstored⟩ := stored_append hdone
    obtain ⟨text, rfl, rfl⟩ := exists_text_of_parse (read_eq_ok_iff.mp hread)
    obtain ⟨before, hbefore, hafter⟩ := parse_extended_fringe hentry text
    rw [hstored, frayed_toUTF8]
    constructor
    · intro hwhole
      rw [read_eq_ok_iff, hafter, hbefore]
      split
      · rfl
      · next hblank =>
          have hends := not_and.mp hwhole (Bool.eq_false_iff.mpr hblank)
          rw [Text.chop_eq_self_iff.mpr hends]
    · rintro ⟨hblank, hreturn⟩
      obtain ⟨line, hline⟩ := Text.exists_append_return hreturn
      refine ⟨before, line, ?_, ?_⟩
      · rw [hbefore, hblank, hline]
        rfl
      · rw [read_eq_ok_iff, hafter, hblank, hline, Text.chop_append_return]
        simp
  · obtain ⟨-, hstored⟩ := stored_append hdone
    rw [hstored, read_eq_ok_iff] at hread
    obtain ⟨text, htext, -⟩ := exists_text_of_parse hread
    obtain ⟨text', rfl⟩ := exists_text_of_extended htext
    exact hunread _ (read_eq_ok_iff.mpr (parse_toUTF8 text'))

theorem read_rewritten_frayed :
    let bytes := "420\nadd\r".toUTF8
    let garbled : ByteArray := ⟨#[52, 50, 255]⟩
    let reseeded := Request.onBytes (.replaceSeed 7, .faultless) bytes
    let longer := Request.onBytes (.append "15", .faultless) bytes
    let still := Request.onBytes (.append "15", .faultless) garbled
    read bytes = .ok (.entries ["420", "add\r"]) ∧
      (reseeded.1 = .ok .done ∧ read reseeded.2 = .ok (.entries ["7", "add"])) ∧
      (longer.1 = .ok .done ∧ ∃ before line, ["420", "add\r"] = before ++ [line ++ "\r"] ∧
        read longer.2 = .ok (.entries (before ++ [line, "15"]))) ∧
      (∀ es, read garbled ≠ .ok (.entries es)) ∧ still.1 = .ok .done ∧
      ∀ es, read still.2 ≠ .ok (.entries es) := by
  intro bytes garbled reseeded longer still
  have hread : read bytes = .ok (.entries ["420", "add\r"]) := by decide +kernel
  have hreseeded : reseeded.1 = .ok .done := by decide +kernel
  have hlonger : longer.1 = .ok .done := by decide +kernel
  have hfrayed : Frayed bytes := ⟨"420\nadd\r", rfl, by decide +kernel⟩
  have hgarbled : read garbled = .error .corruptJournal := by decide +kernel
  have hunread : ∀ es, read garbled ≠ .ok (.entries es) := by
    rw [hgarbled]
    exact nofun
  have hstill : still.1 = .ok .done := by decide +kernel
  obtain ⟨hseed, happend, -⟩ := read_rewritten .faultless bytes
  obtain ⟨-, -, hstays⟩ := read_rewritten .faultless garbled
  exact ⟨hread, ⟨hreseeded, (hseed _ 7 hread hreseeded).1⟩,
    ⟨hlonger, (happend _ "15" hread hlonger).2 hfrayed⟩, hunread, hstill,
    hstays "15" hunread hstill⟩

theorem not_others_kept :
    ¬ ∀ (bytes : ByteArray) (es : List String), read bytes = .ok (.entries es) →
      (∀ seed, (Request.onBytes (.replaceSeed seed, .faultless) bytes).1 = .ok .done →
        read (Request.onBytes (.replaceSeed seed, .faultless) bytes).2
          = .ok (.entries (seed.decimal :: es.tail))) ∧
      ∀ entry, (Request.onBytes (.append entry, .faultless) bytes).1 = .ok .done →
        read (Request.onBytes (.append entry, .faultless) bytes).2
          = .ok (.entries (es ++ [entry])) := by
  intro h
  have hread : read "420\nadd\r".toUTF8 = .ok (.entries ["420", "add\r"]) := by decide +kernel
  have hkept := (h _ _ hread).1 7 (by decide +kernel)
  exact absurd hkept (by decide +kernel)

end Journal

end DurableCalc
