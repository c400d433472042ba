import DurableCalc.Proofs.Rewriting

namespace DurableCalc

namespace Text

structure Torn (front back : ByteArray) : Prop where
  char : ∃ c : Char, (String.singleton c).toUTF8 = front ++ back
  front_pos : 0 < front.size
  back_pos : 0 < back.size

theorem isUTF8FirstByte_singleton {c : Char} {bytes : ByteArray}
    (h : (String.singleton c).toUTF8 = bytes) {i : Nat} (hi : i < bytes.size) :
    bytes[i].IsUTF8FirstByte ↔ i = 0 := by
  subst h
  simp [List.isUTF8FirstByte_getElem_utf8Encode_singleton]

theorem isValidUTF8_of_append {before after : ByteArray} (h : (before ++ after).IsValidUTF8)
    (hpos : 0 < after.size) (hfirst : after[0].IsUTF8FirstByte) : after.IsValidUTF8 := by
  let text : String := ⟨before ++ after, h⟩
  let p : String.Pos.Raw := ⟨before.size⟩
  have hsize : text.utf8ByteSize = before.size + after.size := ByteArray.size_append
  have hp : p < text.rawEndPos := by
    simp only [p, String.Pos.Raw.lt_iff, String.byteIdx_rawEndPos]
    omega
  have hstart : p.IsValid text := by
    refine String.Pos.Raw.isValid_iff_isUTF8FirstByte.mpr (.inr ⟨hp, ?_⟩)
    simpa [text, p, String.getUTF8Byte, ByteArray.getElem_append_right] using hfirst
  have hrest := hstart.isValidUTF8_extract_utf8ByteSize
  rwa [ByteArray.extract_append_eq_right rfl hsize] at hrest

namespace Torn

variable {front back : ByteArray}

theorem isUTF8FirstByte_front (h : Torn front back) (hfront : 0 < front.size) :
    front[0].IsUTF8FirstByte := by
  obtain ⟨c, hc⟩ := h.char
  have hfirst := (isUTF8FirstByte_singleton hc (by rw [ByteArray.size_append]; omega)).mpr rfl
  rwa [ByteArray.getElem_append_left hfront] at hfirst

theorem not_isUTF8FirstByte_back (h : Torn front back) (hback : 0 < back.size) :
    ¬ back[0].IsUTF8FirstByte := by
  obtain ⟨c, hc⟩ := h.char
  have hinside : front.size < (front ++ back).size := by
    rw [ByteArray.size_append]
    omega
  have hlater := mt (isUTF8FirstByte_singleton hc hinside).mp (Nat.ne_of_gt h.front_pos)
  simpa [ByteArray.getElem_append_right] using hlater

theorem not_isValidUTF8_front (h : Torn front back) : ¬ front.IsValidUTF8 := by
  rintro ⟨cs, rfl⟩
  obtain ⟨c, hc⟩ := h.char
  have hfront := h.front_pos
  have hback := h.back_pos
  have hchar : cs.utf8Encode ++ back = [c].utf8Encode := by
    rw [← hc]
    simp
  -- decoded from the start, both sides give the same characters as far as `cs` goes
  have hprefix : cs <+: [c] := List.isPrefix_of_utf8Encode_append_eq_utf8Encode back hchar
  rcases List.prefix_cons_iff.mp hprefix with rfl | ⟨ds, rfl, hds⟩
  · exact absurd hfront (by simp)
  · obtain rfl := List.prefix_nil.mp hds
    have hsize := congrArg ByteArray.size hchar
    rw [ByteArray.size_append] at hsize
    omega

theorem not_isValidUTF8_append_front (h : Torn front back) (before : ByteArray) :
    ¬ (before ++ front).IsValidUTF8 := by
  intro hvalid
  exact h.not_isValidUTF8_front
    (isValidUTF8_of_append hvalid h.front_pos (h.isUTF8FirstByte_front h.front_pos))

theorem not_isValidUTF8_back_append (h : Torn front back) (after : ByteArray) :
    ¬ (back ++ after).IsValidUTF8 := by
  intro hvalid
  have hback := h.back_pos
  have hfirst := hvalid.isUTF8FirstByte_getElem_zero (by rw [ByteArray.size_append]; omega)
  rw [ByteArray.getElem_append_left hback] at hfirst
  exact h.not_isUTF8FirstByte_back hback hfirst

end Torn

end Text

namespace Journal

open Text (Torn)

def Whole (bytes : ByteArray) : Prop :=
  bytes = ByteArray.empty ∨ ∃ before : ByteArray, bytes = before.push terminator

theorem exists_parse_iff {bytes : ByteArray} :
    (∃ es, parse bytes = .ok es) ↔ bytes.IsValidUTF8 := by
  constructor
  · rintro ⟨es, h⟩
    obtain ⟨text, rfl, -⟩ := exists_text_of_parse h
    exact text.isValidUTF8
  · intro h
    exact ⟨_, parse_toUTF8 ⟨bytes, h⟩⟩

theorem parse_eq_error_iff {bytes : ByteArray} :
    parse bytes = .error .corruptJournal ↔ ¬ ∃ es, parse bytes = .ok es := by
  unfold parse
  cases String.fromUTF8? bytes <;> simp

theorem Whole.exists_newline {s : String} (h : Whole s.toUTF8) :
    s = "" ∨ ∃ t, s = t ++ "\n" := by
  rcases h with h | ⟨before, h⟩
  · exact .inl (String.toByteArray_inj.mp h)
  · obtain ⟨t, -, rfl, -⟩ := Text.toUTF8_cut (h.trans (ByteArray.append_empty).symm)
    exact .inr ⟨t, String.toByteArray_inj.mp (h.trans (push_terminator t))⟩

theorem Whole.exists_texts {whole rest : ByteArray} (hwhole : Whole whole) {text : String}
    (h : whole ++ rest = text.toUTF8) : ∃ s t : String, whole = s.toUTF8 ∧ rest = t.toUTF8 := by
  rcases hwhole with rfl | ⟨before, rfl⟩
  · exact ⟨"", text, rfl, by rw [← h, ByteArray.empty_append]⟩
  · obtain ⟨s, t, rfl, rfl⟩ := Text.toUTF8_cut h.symm
    exact ⟨s ++ "\n", t, push_terminator s, rfl⟩

theorem parse_toUTF8_append {s : String} (hs : Whole s.toUTF8) (t : String) :
    parse (s.toUTF8 ++ t.toUTF8) = .ok (entriesOf s ++ entriesOf t) := by
  rw [← entriesOf_whole_append hs.exists_newline, ← parse_toUTF8]
  simp

theorem parse_append_eq_ok_iff {whole : ByteArray} (hwhole : Whole whole) {rest : ByteArray}
    {es : List String} :
    parse (whole ++ rest) = .ok es ↔
      ∃ before after, parse whole = .ok before ∧ parse rest = .ok after ∧ es = before ++ after := by
  constructor
  · intro h
    obtain ⟨text, htext, -⟩ := exists_text_of_parse h
    obtain ⟨s, t, rfl, rfl⟩ := hwhole.exists_texts htext
    have hparts := parse_toUTF8_append hwhole t
    exact ⟨_, _, parse_toUTF8 s, parse_toUTF8 t, Except.ok.inj (h.symm.trans hparts)⟩
  · rintro ⟨before, after, hbefore, hafter, rfl⟩
    obtain ⟨s, rfl, rfl⟩ := exists_text_of_parse hbefore
    obtain ⟨t, rfl, rfl⟩ := exists_text_of_parse hafter
    exact parse_toUTF8_append hwhole t

/-- Bytes are parsed line by line. Cut where a line ends, they are a journal exactly if both parts
are, and their entries are those of the parts one after the other. What is left of a character that
was cut off before the end of a line, or missed at its beginning, spoils them for good. -/
theorem parse_seam {whole : ByteArray} (hwhole : Whole whole) (rest : ByteArray) :
    (∀ es, parse (whole ++ rest) = .ok es ↔
      ∃ before after, parse whole = .ok before ∧ parse rest = .ok after ∧ es = before ++ after) ∧
    (parse (whole ++ rest) = .error .corruptJournal ↔
      ¬ ((∃ before, parse whole = .ok before) ∧ ∃ after, parse rest = .ok after)) ∧
    ∀ front back, Torn front back →
      (∀ before : ByteArray,
        parse ((before ++ front).push terminator ++ rest) = .error .corruptJournal) ∧
      parse (whole ++ (back ++ rest)) = .error .corruptJournal := by
  refine ⟨fun es => parse_append_eq_ok_iff hwhole, ?_, fun front back htorn =>
    ⟨fun before => ?_, ?_⟩⟩
  · rw [parse_eq_error_iff, not_iff_not]
    constructor
    · rintro ⟨es, h⟩
      obtain ⟨before, after, hbefore, hafter, -⟩ := (parse_append_eq_ok_iff hwhole).mp h
      exact ⟨⟨before, hbefore⟩, ⟨after, hafter⟩⟩
    · rintro ⟨⟨before, hbefore⟩, ⟨after, hafter⟩⟩
      exact ⟨_, (parse_append_eq_ok_iff hwhole).mpr ⟨before, after, hbefore, hafter, rfl⟩⟩
  · rw [parse_eq_error_iff, exists_parse_iff]
    intro hvalid
    -- the line feed is no part of a character, so that what stands before it would be a text
    obtain ⟨line, -, hline, -⟩ := Text.toUTF8_cut (s := ⟨_, hvalid⟩) rfl
    apply htorn.not_isValidUTF8_append_front before
    rw [hline]
    exact line.isValidUTF8
  · rw [parse_eq_error_iff]
    rintro ⟨es, h⟩
    obtain ⟨-, after, -, hafter, -⟩ := (parse_append_eq_ok_iff hwhole).mp h
    exact htorn.not_isValidUTF8_back_append rest (exists_parse_iff.mp ⟨after, hafter⟩)

theorem parse_seam_torn :
    let whole := "420\nadd\r\n".toUTF8
    let front : ByteArray := ⟨#[195]⟩
    let back : ByteArray := ⟨#[169]⟩
    let rest := " \n15".toUTF8
    Whole whole ∧ parse whole = .ok ["420", "add"] ∧ parse rest = .ok ["15"] ∧
      parse (whole ++ rest) = .ok ["420", "add", "15"] ∧
      parse (whole ++ (front ++ back ++ rest)) = .ok ["420", "add", "é ", "15"] ∧
      Torn front back ∧
      parse ((whole ++ front).push terminator ++ (back ++ rest)) = .error .corruptJournal ∧
      parse (whole ++ (back ++ rest)) = .error .corruptJournal := by
  intro whole front back rest
  have hwhole : Whole whole := .inr ⟨"420\nadd\r".toUTF8, by decide +kernel⟩
  have hbefore : parse whole = .ok ["420", "add"] := by decide +kernel
  have hafter : parse rest = .ok ["15"] := by decide +kernel
  have hjoined : parse (front ++ back ++ rest) = .ok ["é ", "15"] := by decide +kernel
  have htorn : Torn front back := ⟨⟨'é', by decide +kernel⟩, by decide, by decide⟩
  refine ⟨hwhole, hbefore, hafter, ?_, ?_, htorn, ?_, ?_⟩
  · exact ((parse_seam hwhole rest).1 _).mpr ⟨_, _, hbefore, hafter, rfl⟩
  · exact ((parse_seam hwhole (front ++ back ++ rest)).1 _).mpr ⟨_, _, hbefore, hjoined, rfl⟩
  · exact ((parse_seam hwhole (back ++ rest)).2.2 front back htorn).1 whole
  · exact ((parse_seam hwhole rest).2.2 front back htorn).2

end Journal

end DurableCalc
