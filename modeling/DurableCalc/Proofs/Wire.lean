import DurableCalc.Journal.Format

namespace DurableCalc

namespace Text

theorem chopReturn_of_not_mem {cs : List Char} (h : '\r' ∉ cs) : chopReturn cs = cs := by
  obtain rfl | ⟨ds, d, rfl⟩ := cs.eq_nil_or_concat
  · rfl
  · rw [List.concat_eq_append] at h ⊢
    exact chopReturn_append_of_ne (fun e => h (by simp [e])) ds

theorem trimChars_append_blank {c : Char} (hc : isBlankChar c = true) (cs : List Char) :
    trimChars (cs ++ [c]) = trimChars cs := by
  induction cs with
  | nil => simp [trimChars, trimEnd, trimStart, hc]
  | cons d cs ih =>
      cases hd : isBlankChar d with
      | true => simpa [trimChars, trimStart, hd] using ih
      | false =>
          rw [trimChars, trimChars, List.cons_append, trimStart_cons_of_not_blank hd,
            trimStart_cons_of_not_blank hd, ← List.cons_append]
          exact trimEnd_append_of_blank (List.forall_mem_singleton.mpr hc) (d :: cs)

theorem trimChars_chopReturn (cs : List Char) : trimChars (chopReturn cs) = trimChars cs := by
  obtain rfl | ⟨ds, d, rfl⟩ := cs.eq_nil_or_concat
  · rfl
  · rw [List.concat_eq_append]
    by_cases h : d = '\r'
    · subst h
      rw [chopReturn_append_return, trimChars_append_blank (by decide)]
    · rw [chopReturn_append_of_ne h]

theorem isBlank_eq_decide (s : String) : isBlank s = decide (trim s = "") := by
  rw [Bool.eq_iff_iff, decide_eq_true_iff, trim_eq_empty_iff]

theorem toNat_eq_of_eq_ofNat {b : UInt8} {n : Nat} (h : b = UInt8.ofNat n) :
    b.toNat = n % 256 := by
  rw [h]
  exact UInt8.toNat_ofNat'

theorem eq_newline_of_mem_encode {c : Char} (h : 10 ∈ String.utf8EncodeChar c) : c = '\n' := by
  have hten : (10 : UInt8).toNat = 10 := rfl
  have hval : c.val.toNat = c.toNat := rfl
  simp only [String.utf8EncodeChar] at h
  split at h
  · have := toNat_eq_of_eq_ofNat (List.mem_singleton.mp h)
    apply Char.toNat_inj.mp
    show c.toNat = 10
    omega
  · split at h
    · simp only [List.mem_cons, List.not_mem_nil, or_false] at h
      rcases h with h | h <;> have := toNat_eq_of_eq_ofNat h <;> omega
    · split at h
      · simp only [List.mem_cons, List.not_mem_nil, or_false] at h
        rcases h with h | h | h <;> have := toNat_eq_of_eq_ofNat h <;> omega
      · simp only [List.mem_cons, List.not_mem_nil, or_false] at h
        rcases h with h | h | h | h <;> have := toNat_eq_of_eq_ofNat h <;> omega

theorem linesFrom_append (before cs rest : List Char) :
    linesFrom before (cs ++ '\n' :: rest) = linesFrom before (cs ++ ['\n']) ++ linesFrom [] rest := by
  induction cs generalizing before with
  | nil => simp [linesFrom]
  | cons c cs ih =>
      by_cases hc : c = '\n'
      · simp [linesFrom, hc, ih]
      · simp [linesFrom, hc, ih]

theorem length_linesFrom_le (before cs : List Char) :
    (linesFrom before cs).length ≤ cs.length + (if before = [] then 0 else 1) := by
  induction cs generalizing before with
  | nil => by_cases h : before = [] <;> simp [linesFrom, h]
  | cons c cs ih =>
      by_cases hc : c = '\n'
      · have := ih []
        simp only [linesFrom, hc, if_true, List.length_cons] at this ⊢
        omega
      · have := ih (c :: before)
        simp only [linesFrom, hc, if_false, List.length_cons, reduceCtorEq] at this ⊢
        omega

end Text

namespace Journal

def entriesOf (text : String) : List String :=
  (Text.lines text).filter fun line => !Text.isBlank line

theorem fromUTF8?_toUTF8 (s : String) : String.fromUTF8? s.toUTF8 = some s := by
  simp [String.fromUTF8?, s.isValidUTF8, String.fromUTF8]

theorem eq_toUTF8_of_fromUTF8? {bytes : ByteArray} {s : String}
    (h : String.fromUTF8? bytes = some s) : bytes = s.toUTF8 := by
  unfold String.fromUTF8? at h
  split at h
  · rw [← Option.some.inj h]
    rfl
  · cases h

theorem parse_toUTF8 (text : String) : parse text.toUTF8 = .ok (entriesOf text) := by
  simp only [parse, fromUTF8?_toUTF8, entriesOf]

theorem exists_text_of_parse {bytes : ByteArray} {es : List String} (h : parse bytes = .ok es) :
    ∃ text : String, bytes = text.toUTF8 ∧ entriesOf text = es := by
  unfold parse at h
  split at h
  · next text ht => exact ⟨text, eq_toUTF8_of_fromUTF8? ht, Except.ok.inj h⟩
  · cases h

theorem entriesOf_append (s t : String) :
    entriesOf (s ++ "\n" ++ t) = entriesOf (s ++ "\n") ++ entriesOf t := by
  have hn : ("\n" : String).toList = ['\n'] := rfl
  simp only [entriesOf, Text.lines, String.toList_append, hn, List.append_assoc,
    List.singleton_append, Text.linesFrom_append [] s.toList t.toList, List.map_append,
    List.filter_append]

theorem entriesOf_line {e : String} (h : Storable e) : entriesOf (e ++ "\n") = [e] := by
  have hn : ("\n" : String).toList = ['\n'] := rfl
  have hline : '\n' ∉ e.toList := fun m => (h.2 _ m).1 rfl
  have hreturn : '\r' ∉ e.toList := fun m => (h.2 _ m).2 rfl
  simp [entriesOf, Text.lines, hn, Text.linesFrom_line hline [] [],
    Text.chopReturn_of_not_mem hreturn, Text.linesFrom, h.1]

theorem entriesOf_unlines {es : List String} (h : ∀ e ∈ es, Storable e) :
    entriesOf (Text.unlines es) = es := by
  induction es with
  | nil => rfl
  | cons e es ih =>
      rw [Text.unlines, ← String.append_assoc, entriesOf_append, entriesOf_line (h e (by simp)),
        ih fun e' m => h e' (List.mem_cons_of_mem e m)]
      rfl

theorem parse_render {es : List String} (h : ∀ e ∈ es, Storable e) : parse (render es) = .ok es := by
  rw [render, parse_toUTF8, entriesOf_unlines h]

theorem render_append (es fs : List String) : render (es ++ fs) = render es ++ render fs := by
  induction es with
  | nil => simp [render, Text.unlines]
  | cons e es ih =>
      simp only [render, String.toUTF8_eq_toByteArray] at ih
      simp [render, Text.unlines, ih, ByteArray.append_assoc]

theorem terminated_push (bytes : ByteArray) (b : UInt8) :
    terminated (bytes.push b)
      = if b = terminator then bytes.push b else (bytes.push b).push terminator := by
  have hlast : (bytes.push b)[bytes.size]? = some b := by
    rw [getElem?_pos _ _ (by simp)]
    exact congrArg some Array.getElem_push_eq
  simp only [terminated, ByteArray.size_push, Nat.add_sub_cancel, hlast]

theorem push_terminator (s : String) : s.toUTF8.push terminator = (s ++ "\n").toUTF8 := by
  rw [← ByteArray.append_toByteArray_singleton]
  simp only [String.toUTF8_eq_toByteArray, String.toByteArray_append]
  rfl

theorem terminated_newline (s : String) : terminated (s ++ "\n").toUTF8 = (s ++ "\n").toUTF8 := by
  rw [← push_terminator, terminated_push, if_pos rfl]

theorem exists_push_eq (cs : List Char) (c : Char) :
    ∃ bytes b, (String.ofList (cs ++ [c])).toUTF8 = ByteArray.push bytes b ∧
      (b = terminator → c = '\n') := by
  obtain h | ⟨bs, b, h⟩ := (String.utf8EncodeChar c).eq_nil_or_concat
  · exact absurd h String.utf8EncodeChar_ne_nil
  · refine ⟨(String.ofList cs).toUTF8 ++ bs.toByteArray, b, ?_, fun hb => ?_⟩
    · simp [List.utf8Encode_singleton, h]
      rw [← ByteArray.append_toByteArray_singleton, ← ByteArray.append_toByteArray_singleton,
        ByteArray.append_assoc]
    · apply Text.eq_newline_of_mem_encode
      rw [h, hb]
      simp [terminator]

theorem terminated_toUTF8 (text : String) :
    (text = "" ∧ terminated text.toUTF8 = text.toUTF8) ∨
      (∃ start, text = start ++ "\n" ∧ terminated text.toUTF8 = text.toUTF8) ∨
      terminated text.toUTF8 = (text ++ "\n").toUTF8 := by
  obtain h | ⟨cs, c, h⟩ := text.toList.eq_nil_or_concat
  · have : text = "" := String.toList_inj.mp (h.trans rfl)
    subst this
    exact .inl ⟨rfl, rfl⟩
  · rw [List.concat_eq_append] at h
    have htext : text = String.ofList (cs ++ [c]) := by rw [← h, String.ofList_toList]
    obtain ⟨bytes, b, hbytes, hb⟩ := exists_push_eq cs c
    rw [htext, ← push_terminator, hbytes, terminated_push]
    by_cases h : b = terminator
    · refine .inr (.inl ⟨String.ofList cs, ?_, if_pos h⟩)
      rw [hb h, String.ofList_append]
    · exact .inr (.inr (if_neg h))

theorem render_line (e : String) : render [e] = (e ++ "\n").toUTF8 := by
  simp [render, Text.unlines]

theorem extended_render (es : List String) (e : String) :
    extended (render es) e = render (es ++ [e]) := by
  have hterminated : terminated (render es) = render es := by
    obtain rfl | ⟨ds, d, rfl⟩ := es.eq_nil_or_concat
    · rfl
    · rw [List.concat_eq_append, render_append, render_line]
      have h := terminated_newline (Text.unlines ds ++ d)
      rwa [String.append_assoc, String.toUTF8_eq_toByteArray, String.toByteArray_append] at h
  rw [extended, hterminated, render_append]

theorem map_trim_filter_linesFrom (before cs : List Char) :
    (((Text.linesFrom before (cs ++ ['\n'])).map String.ofList).filter
        fun line => !Text.isBlank line).map Text.trim
      = (((Text.linesFrom before cs).map String.ofList).filter
        fun line => !Text.isBlank line).map Text.trim := by
  induction cs generalizing before with
  | nil =>
      by_cases h : before = []
      · subst h
        rfl
      · have htrim : Text.trim (String.ofList (Text.chopReturn before.reverse))
            = Text.trim (String.ofList before.reverse) := by
          simp [Text.trim, Text.trimChars_chopReturn]
        simp [Text.linesFrom, h, Text.isBlank_eq_decide, List.filter_cons, htrim]
        split <;> simp [htrim]
  | cons c cs ih =>
      by_cases hc : c = '\n'
      · have := ih []
        simp only [Text.linesFrom, hc, if_true, List.cons_append, List.map_cons, List.filter_cons]
        split <;> simp [this]
      · simpa [Text.linesFrom, hc] using ih (c :: before)

theorem map_trim_entriesOf_newline (text : String) :
    (entriesOf (text ++ "\n")).map Text.trim = (entriesOf text).map Text.trim := by
  have hn : ("\n" : String).toList = ['\n'] := rfl
  simpa only [entriesOf, Text.lines, String.toList_append, hn] using
    map_trim_filter_linesFrom [] text.toList

theorem parse_newline_append {e : String} (he : Storable e) (s : String) :
    parse ((s ++ "\n").toUTF8 ++ render [e]) = .ok (entriesOf (s ++ "\n") ++ [e]) := by
  rw [render_line, String.toUTF8_eq_toByteArray, String.toUTF8_eq_toByteArray,
    ← String.toByteArray_append, ← String.toUTF8_eq_toByteArray, parse_toUTF8, entriesOf_append,
    entriesOf_line he]

theorem parse_extended {bytes : ByteArray} {es : List String} {e : String}
    (h : parse bytes = .ok es) (he : Storable e) :
    ∃ es', parse (extended bytes e) = .ok (es' ++ [e]) ∧ es'.map Text.trim = es.map Text.trim := by
  obtain ⟨text, rfl, rfl⟩ := exists_text_of_parse h
  unfold extended
  rcases terminated_toUTF8 text with ⟨rfl, ht⟩ | ⟨start, rfl, ht⟩ | ht
  · refine ⟨[], ?_, rfl⟩
    rw [ht]
    have hrender := parse_render (List.forall_mem_singleton.mpr he)
    simpa using hrender
  · refine ⟨_, ?_, rfl⟩
    rw [ht, parse_newline_append he]
  · refine ⟨_, ?_, map_trim_entriesOf_newline text⟩
    rw [ht, parse_newline_append he]

theorem length_le_size_encode (cs : List Char) : cs.length ≤ cs.utf8Encode.size := by
  induction cs with
  | nil => exact Nat.zero_le _
  | cons c cs ih =>
      have := c.utf8Size_pos
      rw [List.utf8Encode_cons, ByteArray.size_append, List.utf8Encode_singleton,
        List.size_toByteArray, String.length_utf8EncodeChar, List.length_cons]
      omega

theorem length_le_size_of_parse {bytes : ByteArray} {es : List String} (h : parse bytes = .ok es) :
    es.length ≤ bytes.size := by
  obtain ⟨text, rfl, rfl⟩ := exists_text_of_parse h
  have hfilter := List.length_filter_le (fun line => !Text.isBlank line) (Text.lines text)
  have hlines := Text.length_linesFrom_le [] text.toList
  have hsize := length_le_size_encode text.toList
  rw [String.utf8Encode_toList] at hsize
  rw [Text.lines, List.length_map] at hfilter
  exact Nat.le_trans hfilter (Nat.le_trans hlines hsize)

def Opens (bytes : ByteArray) (seed : Int64) (trace : List String) : Prop :=
  ∃ e, parse bytes = .ok (e :: trace) ∧ Numeral.readTrimmed? e = some seed

namespace Opens

variable {bytes : ByteArray} {seed : Int64} {trace : List String}

theorem not_isEmpty (h : Opens bytes seed trace) : bytes.isEmpty = false := by
  obtain ⟨e, hparse, -⟩ := h
  have hsize := length_le_size_of_parse hparse
  rw [ByteArray.isEmpty, Bool.eq_false_iff, ne_eq, beq_iff_eq]
  rw [List.length_cons] at hsize
  omega

theorem length_lt_size (h : Opens bytes seed trace) : trace.length < bytes.size := by
  obtain ⟨e, hparse, -⟩ := h
  exact length_le_size_of_parse hparse

theorem extended (h : Opens bytes seed trace) {e : String} (he : Storable e) :
    ∃ trace', Opens (extended bytes e) seed (trace' ++ [e]) := by
  obtain ⟨first, hparse, hseed⟩ := h
  obtain ⟨es, hes, htrim⟩ := parse_extended hparse he
  cases es with
  | nil => simp at htrim
  | cons first' es =>
      refine ⟨es, first', hes, ?_⟩
      rw [List.map_cons, List.map_cons, List.cons.injEq] at htrim
      rw [Numeral.readTrimmed?, htrim.1]
      exact hseed

end Opens

theorem opens_render_cons {e : String} (he : Storable e) {seed : Int64}
    (hseed : Numeral.readTrimmed? e = some seed) (es : List String) :
    ∃ trace, Opens (render (e :: es)) seed trace := by
  refine ⟨entriesOf (Text.unlines es), e, ?_, hseed⟩
  rw [render, parse_toUTF8, Text.unlines, ← String.append_assoc, entriesOf_append,
    entriesOf_line he]
  rfl

theorem opens_render {e : String} {es : List String} {seed : Int64} (he : Storable e)
    (hes : ∀ e' ∈ es, Storable e') (hseed : Numeral.readTrimmed? e = some seed) :
    Opens (render (e :: es)) seed es :=
  ⟨e, parse_render (List.forall_mem_cons.mpr ⟨he, hes⟩), hseed⟩

end Journal

end DurableCalc
