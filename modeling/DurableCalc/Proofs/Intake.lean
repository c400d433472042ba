import DurableCalc.Proofs.Wire
import DurableCalc.Sitting

namespace DurableCalc.Terminal

inductive Reads : List UInt8 → List String → List UInt8 → Prop
  | nil (bs : List UInt8) : Reads bs [] bs
  | line {bs rest : List UInt8} {line : String} {lines : List String} :
      bs ≠ [] → decode (cut bs).1.toByteArray = .ok line →
      Reads ((cut bs).2.getD []) lines rest → Reads bs (line :: lines) rest

section

variable {bs bs' rest : List UInt8} {lines ls ms : List String}

theorem Reads.append (h : Reads bs ls bs') (h' : Reads bs' ms rest) :
    Reads bs (ls ++ ms) rest := by
  induction h with
  | nil bs => exact h'
  | line hne hdecode _ ih => exact .line hne hdecode (ih h')

theorem cut_ne_nil (h : bs ≠ []) : (cut bs).1 ≠ [] := by
  cases bs with
  | nil => exact absurd rfl h
  | cons b bs =>
      rw [cut]
      split <;> simp

theorem length_cut_lt (h : bs ≠ []) : ((cut bs).2.getD []).length < bs.length := by
  have hwhole := congrArg List.length (cut_append bs)
  have hpos := List.length_pos_iff.mpr (cut_ne_nil h)
  rw [List.length_append] at hwhole
  omega

theorem Reads.length_le (h : Reads bs ls rest) : ls.length + rest.length ≤ bs.length := by
  induction h with
  | nil bs => simp
  | line hne _ _ ih =>
      have hlt := length_cut_lt hne
      rw [List.length_cons]
      omega

theorem Reads.split (h : Reads bs ls rest) (hall : Reads bs lines []) :
    ∃ ms, lines = ls ++ ms ∧ Reads rest ms [] := by
  induction h generalizing lines with
  | nil bs => exact ⟨lines, rfl, hall⟩
  | line hne hdecode _ ih =>
      cases hall with
      | nil => exact absurd rfl hne
      | line _ hdecode' hrest =>
          obtain ⟨ms, rfl, hms⟩ := ih hrest
          rw [hdecode] at hdecode'
          obtain rfl := Except.ok.inj hdecode'
          exact ⟨ms, rfl, hms⟩

theorem reads_nil (h : Reads [] ls rest) : ls = [] ∧ rest = [] := by
  cases h with
  | nil => exact ⟨rfl, rfl⟩
  | line hne => exact absurd rfl hne

end

theorem dropEnds_newline (s : String) : dropEnds (s ++ "\n") = dropEnds s := by
  simp [dropEnds]

theorem decode_eq_ok_iff {bytes : ByteArray} {line : String} :
    decode bytes = .ok line ↔
      bytes.isEmpty = false ∧ ∃ s : String, bytes = s.toUTF8 ∧ dropEnds s = line := by
  constructor
  · intro h
    unfold decode at h
    split at h
    · cases h
    · next hempty =>
        split at h
        · next s hs =>
            exact ⟨by simpa using hempty, s, Journal.eq_toUTF8_of_fromUTF8? hs, Except.ok.inj h⟩
        · cases h
  · rintro ⟨hempty, s, rfl, rfl⟩
    rw [decode, hempty, Journal.fromUTF8?_toUTF8]
    rfl

theorem decode_garbled {bs : List UInt8} {e : Error} (hne : bs ≠ [])
    (h : decode bs.toByteArray = .error e) : e = .transport .invalidText := by
  unfold decode at h
  split at h
  · next hempty => simp [ByteArray.isEmpty, hne] at hempty
  · split at h
    · cases h
    · exact (Except.error.inj h).symm

theorem toByteArray_concat (bs : List UInt8) (b : UInt8) :
    (bs ++ [b]).toByteArray = bs.toByteArray.push b := by
  apply ByteArray.ext
  simp

theorem decode_newline {bs : List UInt8} {line : String} (h : decode bs.toByteArray = .ok line) :
    decode (bs ++ [10]).toByteArray = .ok line := by
  obtain ⟨-, s, hs, rfl⟩ := decode_eq_ok_iff.mp h
  have hpush : (bs ++ [10]).toByteArray = (s ++ "\n").toUTF8 := by
    rw [toByteArray_concat, hs]
    exact Journal.push_terminator s
  rw [decode_eq_ok_iff]
  refine ⟨?_, s ++ "\n", hpush, dropEnds_newline s⟩
  rw [toByteArray_concat]
  simp [ByteArray.isEmpty]

theorem cut_of_some {bs : List UInt8} {after : List UInt8} (h : (cut bs).2 = some after)
    (more : List UInt8) :
    (cut bs).1 ≠ [] ∧ (cut bs).1.getLast? = some 10 ∧
      cut ((cut bs).1 ++ more) = ((cut bs).1, some more) := by
  induction bs with
  | nil => cases h
  | cons b bs ih =>
      unfold cut at h ⊢
      split at h
      · next hb => simp [hb, cut]
      · next hb =>
          obtain ⟨hne, hlast, hcut⟩ := ih h
          simp [hb, hlast, hcut, cut, List.getLast?_cons]

theorem cut_of_none {bs : List UInt8} (h : (cut bs).2 = none) :
    (cut bs).1 = bs ∧ (∀ b ∈ bs, b ≠ 10) ∧
      ∀ more, cut (bs ++ 10 :: more) = (bs ++ [10], some more) := by
  induction bs with
  | nil => simp [cut]
  | cons b bs ih =>
      unfold cut at h ⊢
      split at h
      · cases h
      · next hb =>
          obtain ⟨hsame, hnone, hcut⟩ := ih h
          simp [hb, hsame, hcut]
          exact hnone

theorem closeLine_append {line bs : List UInt8} (hline : line.getLast? = some 10) :
    closeLine (line ++ bs) = line ++ closeLine bs := by
  unfold closeLine
  rw [List.getLast?_append]
  cases hbs : bs.getLast? with
  | none =>
      obtain rfl := List.getLast?_eq_none_iff.mp hbs
      simp [hline]
  | some b =>
      simp only [Option.some_or]
      split <;> simp

theorem closeLine_open {bs : List UInt8} (hne : bs ≠ []) (h : ∀ b ∈ bs, b ≠ 10) :
    closeLine bs = bs ++ [10] := by
  unfold closeLine
  split
  · next hnone => exact absurd (List.getLast?_eq_none_iff.mp hnone) hne
  · next b hb => exact if_neg (h b (List.mem_of_getLast? hb))

theorem Reads.closeLine {bs rest : List UInt8} {lines : List String} (h : Reads bs lines rest) :
    ∃ taken, bs = taken ++ rest ∧ ∀ more, Reads (closeLine taken ++ more) lines more := by
  induction h with
  | nil bs => exact ⟨[], rfl, fun more => .nil more⟩
  | @line bs rest line lines hne hdecode hrest ih =>
      have hwhole := cut_append bs
      obtain ⟨taken, htaken, hreads⟩ := ih
      cases hcut : (cut bs).2 with
      | none =>
          obtain ⟨hsame, hopen, hmore⟩ := cut_of_none hcut
          rw [hcut] at hrest
          obtain ⟨rfl, rfl⟩ := reads_nil hrest
          refine ⟨bs, (List.append_nil bs).symm, fun more => ?_⟩
          rw [closeLine_open hne hopen, List.append_assoc]
          refine .line (by simp) ?_ ?_
          · rw [List.singleton_append, hmore]
            rw [hsame] at hdecode
            exact decode_newline hdecode
          · rw [List.singleton_append, hmore]
            exact .nil more
      | some after =>
          obtain ⟨hfirst, hlast, -⟩ := cut_of_some hcut []
          rw [hcut, Option.getD_some] at hwhole htaken
          refine ⟨(cut bs).1 ++ taken, ?_, fun more => ?_⟩
          · rw [List.append_assoc, ← htaken, hwhole]
          · obtain ⟨-, -, hagain⟩ := cut_of_some hcut (Terminal.closeLine taken ++ more)
            rw [closeLine_append hlast, List.append_assoc]
            refine .line (by simp [hfirst]) ?_ ?_
            · rw [hagain]
              exact hdecode
            · rw [hagain]
              exact hreads more

def Holds (t : Terminal) (bs : List UInt8) : Prop :=
  t.input = [.bytes bs] ∨ t.input = [] ∧ bs = []

theorem Holds.of_input {t t' : Terminal} {bs : List UInt8} (h : t.Holds bs)
    (hinput : t'.input = t.input) : t'.Holds bs := by
  rw [Holds, hinput]
  exact h

theorem Holds.left {t : Terminal} {bs : List UInt8} (h : t.Holds bs) : t.left = bs.length := by
  rcases h with h | ⟨h, rfl⟩ <;> simp [Terminal.left, h, Chunk.size]

theorem takeLine_of_none {bs : List UInt8} (h : (cut bs).2 = none) :
    takeLine [] [.bytes bs] = (.ok (cut bs).1, []) := by
  unfold takeLine
  split
  · next line after hcut => simp [hcut] at h
  · next line hcut => simp [hcut, takeLine]

theorem takeLine_of_some {bs after : List UInt8} (h : (cut bs).2 = some after) :
    takeLine [] [.bytes bs] = (.ok (cut bs).1, [.bytes after]) := by
  unfold takeLine
  split
  · next line after' hcut =>
      rw [hcut] at h ⊢
      obtain rfl := Option.some.inj h
      rfl
  · next line hcut => simp [hcut] at h

theorem Holds.readLine {t : Terminal} {bs : List UInt8} (h : t.Holds bs) :
    ∃ input, t.readLine = (decode (cut bs).1.toByteArray, { t with input }) ∧
      Holds { t with input } ((cut bs).2.getD []) := by
  rcases h with h | ⟨h, rfl⟩
  · cases hcut : (cut bs).2 with
    | none =>
        refine ⟨[], ?_, .inr ⟨rfl, rfl⟩⟩
        rw [Terminal.readLine, h, takeLine_of_none hcut]
    | some after =>
        refine ⟨[.bytes after], ?_, .inl rfl⟩
        rw [Terminal.readLine, h, takeLine_of_some hcut]
  · refine ⟨[], ?_, .inr ⟨rfl, rfl⟩⟩
    rw [Terminal.readLine, h]
    rfl

end DurableCalc.Terminal
