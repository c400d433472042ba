import DurableCalc.Proofs.Wire

namespace DurableCalc

namespace Text

theorem mem_of_mem_chopReturn {c : Char} {cs : List Char} (h : c ∈ chopReturn cs) : c ∈ cs := by
  obtain rfl | ⟨ds, d, rfl⟩ := cs.eq_nil_or_concat
  · exact h
  · rw [List.concat_eq_append] at h ⊢
    by_cases hd : d = '\r'
    · subst hd
      rw [chopReturn_append_return] at h
      exact List.mem_append_left _ h
    · rwa [chopReturn_append_of_ne hd] at h

theorem chopReturn_eq_self_iff {cs : List Char} :
    chopReturn cs = cs ↔ cs.getLast? ≠ some '\r' := by
  obtain rfl | ⟨ds, d, rfl⟩ := cs.eq_nil_or_concat
  · simp [chopReturn]
  · rw [List.concat_eq_append, List.getLast?_concat, ne_eq, Option.some.injEq]
    by_cases hd : d = '\r'
    · subst hd
      simp [chopReturn_append_return]
    · simp [chopReturn_append_of_ne hd, hd]

theorem newline_not_mem_linesFrom {before cs line : List Char} (hbefore : '\n' ∉ before)
    (h : line ∈ linesFrom before cs) : '\n' ∉ line := by
  induction cs generalizing before with
  | nil =>
      rw [linesFrom] at h
      split at h
      · cases h
      · rw [List.mem_singleton.mp h, List.mem_reverse]
        exact hbefore
  | cons c cs ih =>
      rw [linesFrom] at h
      split at h
      · rcases List.mem_cons.mp h with rfl | h
        · exact fun hmem => hbefore (List.mem_reverse.mp (mem_of_mem_chopReturn hmem))
        · exact ih List.not_mem_nil h
      · next hc =>
          refine ih ?_ h
          rw [List.mem_cons, not_or]
          exact ⟨Ne.symm hc, hbefore⟩

def chop (s : String) : String :=
  String.ofList (chopReturn s.toList)

theorem chop_eq_self_iff {s : String} : chop s = s ↔ s.toList.getLast? ≠ some '\r' := by
  rw [← chopReturn_eq_self_iff, chop, ← String.toList_inj, String.toList_ofList]

theorem trim_chop (s : String) : trim (chop s) = trim s := by
  rw [trim, trim, chop, String.toList_ofList, trimChars_chopReturn]

theorem isBlank_chop (s : String) : isBlank (chop s) = isBlank s := by
  rw [Bool.eq_iff_iff, ← trim_eq_empty_iff, ← trim_eq_empty_iff, trim_chop]

end Text

namespace Journal

open Text (isBlank chop)

def Recoverable (entry : String) : Prop :=
  isBlank entry = false ∧ '\n' ∉ entry.toList ∧ entry.toList.getLast? ≠ some '\r'

instance (entry : String) : Decidable (Recoverable entry) :=
  inferInstanceAs (Decidable (_ ∧ _ ∧ _))

theorem Storable.recoverable {entry : String} (h : Storable entry) : Recoverable entry := by
  refine ⟨h.1, fun hmem => (h.2 _ hmem).1 rfl, fun hlast => ?_⟩
  exact (h.2 _ (List.mem_of_getLast? hlast)).2 rfl

theorem whole_of_mem_entriesOf {text entry : String} (h : entry ∈ entriesOf text) :
    isBlank entry = false ∧ '\n' ∉ entry.toList := by
  obtain ⟨hline, hblank⟩ := List.mem_filter.mp h
  obtain ⟨cs, hcs, rfl⟩ := List.mem_map.mp hline
  refine ⟨by simpa using hblank, ?_⟩
  rw [String.toList_ofList]
  exact Text.newline_not_mem_linesFrom List.not_mem_nil hcs

theorem entriesOf_line_chop {entry : String} (h : '\n' ∉ entry.toList) :
    entriesOf (entry ++ "\n") = if isBlank entry then [] else [chop entry] := by
  have hn : ("\n" : String).toList = ['\n'] := rfl
  have hlines : Text.lines (entry ++ "\n") = [chop entry] := by
    rw [Text.lines, String.toList_append, hn, Text.linesFrom_line h [] []]
    rfl
  rw [entriesOf, hlines, List.filter_cons, Text.isBlank_chop]
  cases isBlank entry <;> rfl

theorem entriesOf_unlines_chop {es : List String} (h : ∀ e ∈ es, '\n' ∉ e.toList) :
    entriesOf (Text.unlines es) = (es.filter fun e => !isBlank e).map chop := by
  induction es with
  | nil => rfl
  | cons e es ih =>
      obtain ⟨he, hes⟩ := List.forall_mem_cons.mp h
      rw [Text.unlines, ← String.append_assoc, entriesOf_append, entriesOf_line_chop he, ih hes]
      cases hblank : isBlank e <;> simp [hblank]

theorem parse_render_chop {es : List String} (hblank : ∀ e ∈ es, isBlank e = false)
    (h : ∀ e ∈ es, '\n' ∉ e.toList) : parse (render es) = .ok (es.map chop) := by
  have hall : (es.filter fun e => !isBlank e) = es :=
    List.filter_eq_self.mpr fun e he => by rw [hblank e he]; rfl
  rw [render, parse_toUTF8, entriesOf_unlines_chop h, hall]

theorem map_chop_eq_self_iff {es : List String} :
    es.map chop = es ↔ ∀ e ∈ es, e.toList.getLast? ≠ some '\r' := by
  constructor
  · intro hsame e he
    have hid : es.map chop = es.map id := by rw [hsame, List.map_id]
    exact Text.chop_eq_self_iff.mp (List.map_inj_left.mp hid e he)
  · intro hends
    exact (List.map_congr_left fun e he => Text.chop_eq_self_iff.mpr (hends e he)).trans
      (List.map_id es)

theorem parse_render_eq_ok_iff {es : List String} :
    parse (render es) = .ok es ↔ ∀ e ∈ es, Recoverable e := by
  constructor
  · intro h
    -- whatever is read is a line, so that no entry can make up for another one
    have hread : entriesOf (Text.unlines es) = es := by
      rw [render, parse_toUTF8] at h
      exact Except.ok.inj h
    have hwhole (e : String) (he : e ∈ es) : isBlank e = false ∧ '\n' ∉ e.toList := by
      rw [← hread] at he
      exact whole_of_mem_entriesOf he
    rw [parse_render_chop (fun e he => (hwhole e he).1) fun e he => (hwhole e he).2] at h
    have hends := map_chop_eq_self_iff.mp (Except.ok.inj h)
    exact fun e he => ⟨(hwhole e he).1, (hwhole e he).2, hends e he⟩
  · intro h
    rw [parse_render_chop (fun e he => (h e he).1) fun e he => (h e he).2.1,
      map_chop_eq_self_iff.mpr fun e he => (h e he).2.2]

/-- Entries are given back exactly if each of them is a line by itself. Those that a journal takes
are, and no two lists of them are stored in the same way. -/
theorem parse_render_exact (es : List String) :
    (parse (render es) = .ok es ↔
      ∀ e ∈ es, isBlank e = false ∧ '\n' ∉ e.toList ∧ e.toList.getLast? ≠ some '\r') ∧
    ((∀ e ∈ es, validate e = .ok ()) → parse (render es) = .ok es) ∧
    ∀ fs, (∀ e ∈ es, validate e = .ok ()) → (∀ e ∈ fs, validate e = .ok ()) →
      render es = render fs → es = fs := by
  have hgiven {gs : List String} (hgs : ∀ e ∈ gs, validate e = .ok ()) :
      parse (render gs) = .ok gs :=
    parse_render_eq_ok_iff.mpr fun e he => (validate_eq_ok_iff.mp (hgs e he)).recoverable
  refine ⟨parse_render_eq_ok_iff, hgiven, fun fs hes hfs hsame => ?_⟩
  have hes' := hgiven hes
  rw [hsame, hgiven hfs] at hes'
  exact (Except.ok.inj hes').symm

theorem parse_render_exact_help :
    let es := ["420", "help", "Specify a command to see its help"]
    (∀ e ∈ es, validate e = .ok ()) ∧ parse (render es) = .ok es ∧ render es ≠ render ["420"] ∧
      parse (render ["420", "a\rb"]) = .ok ["420", "a\rb"] ∧
      parse (render ["420", "a\r"]) ≠ .ok ["420", "a\r"] := by
  intro es
  have hes : ∀ e ∈ es, validate e = .ok () := fun e he =>
    validate_eq_ok_iff.mpr ((by decide : ∀ e ∈ es, Storable e) e he)
  have hfs : ∀ e ∈ ["420"], validate e = .ok () := fun e he =>
    validate_eq_ok_iff.mpr ((by decide : ∀ e ∈ ["420"], Storable e) e he)
  obtain ⟨-, hback, hinj⟩ := parse_render_exact es
  refine ⟨hes, hback hes, fun hsame => ?_, ?_, ?_⟩
  · exact absurd (hinj ["420"] hes hfs hsame) (by decide)
  · exact (parse_render_exact ["420", "a\rb"]).1.mpr (by decide)
  · exact mt (parse_render_exact ["420", "a\r"]).1.mp (by decide)

end Journal

end DurableCalc
