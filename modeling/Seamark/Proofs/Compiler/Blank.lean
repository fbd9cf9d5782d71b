import Mathlib
import Seamark.Proofs.Compiler.Cycle
import Seamark.Proofs.Compiler.Shape
import Seamark.Proofs.Table

/-!
# Timelines with nothing in them

A text that is no characteristic has the empty timeline.  So has a light all of whose pieces are
too short to be shown, and this happens: a cycle may be as short as one likes, and a rule that
shares it out makes its pieces shorter still.  It cannot happen to the other lights.  Quick flashes
have a length of their own, the flashes of alternating lights and the units of Morse lights a least
one, and each of these lights has a flash.
-/

namespace Seamark

lemma headD_pos {counts : List Nat} (hcounts : ∀ n ∈ counts, 0 < n) : 0 < counts.headD 1 := by
  cases counts with
  | nil => exact Nat.one_pos
  | cons n counts => exact hcounts n List.mem_cons_self

namespace Compiler

open Double

section

variable {α : Type} [Scalar α] {compiler : Compiler α} {table : Table String} {s : Setup α}

lemma stretchLast_eq_nil_iff {extra : α} {ts : Timeline α} :
    stretchLast extra ts = [] ↔ ts = [] := by
  cases ts with
  | nil => simp [stretchLast]
  | cons p ts => cases ts <;> simp [stretchLast]

/-- A rule shows nothing exactly if all its pieces are too short. -/
lemma applyRule_eq_nil_iff {ts : Timeline α} (h : applyRule compiler table s = .ok ts) :
    ∃ ps, pieces compiler table s = .ok ps ∧ (ts = [] ↔ ∀ p ∈ ps, ¬ shortest < p.duration) := by
  obtain ⟨ps, hps, rfl | ⟨-, extra, -, rfl⟩⟩ := exists_pieces h
  · exact ⟨ps, hps, shown_eq_nil_iff⟩
  · exact ⟨ps, hps, by rw [stretchLast_eq_nil_iff, shown_eq_nil_iff]⟩

end

/-! ### Flashes that are never too short -/

/-- The shortest flash of an alternating light, which is the shortest unit of a Morse light too. -/
lemma unpack_minFlash :
    ∃ hm, (minFlash : Float).toModel.unpack = .finite .positive 7205759403792794 (-57) hm :=
  ⟨by decide, rfl⟩

lemma shortest_lt_of_reaches {x : Float} (h : Reaches (-57) x) : shortest < x := by
  obtain ⟨hm, hunpack⟩ := unpack_shortest
  exact lt_of_reaches hunpack (h.mono (by decide))

lemma reaches_greater_minFlash (x : Float) : Reaches (-57) (greater minFlash x) := by
  obtain ⟨hm, hunpack⟩ := unpack_minFlash
  exact Reaches.greater hunpack (by decide) (by decide) x

lemma reaches_maxFlash : Reaches (-57) (maxFlash : Float) := by
  have hunpack : ∃ hm, (maxFlash : Float).toModel.unpack =
      .finite .positive 5404319552844595 (-54) hm := ⟨by decide, rfl⟩
  obtain ⟨hm, hunpack⟩ := hunpack
  exact (reaches_of_unpack hunpack (by decide)).mono (by decide)

lemma shortest_lt_quickFlash {t : LightType} :
    shortest < lesser maxFlash (quickBeat t * (quickShare : Float)) := by
  cases t <;> decide +kernel

variable {compiler : Compiler Float} {table : Table String} {s : Setup Float}
  {ps : Timeline Float}

/-- Some piece is long enough to be shown. -/
def HasLong (ps : Timeline Float) : Prop := ∃ p ∈ ps, shortest < p.duration

lemma HasLong.append (h : HasLong ps) (qs : Timeline Float) : HasLong (ps ++ qs) := by
  obtain ⟨p, hp, hlong⟩ := h
  exact ⟨p, List.mem_append_left qs hp, hlong⟩

lemma HasLong.repeated {n : Nat} (h : HasLong ps) (hn : 0 < n) : HasLong (repeated n ps) := by
  obtain ⟨p, hp, hlong⟩ := h
  exact ⟨p, mem_repeated_iff.mpr ⟨hn.ne', hp⟩, hlong⟩

lemma quickFlashPieces_hasLong {on : Float} (h : shortest < on) (beat : Float) (color : String) :
    HasLong (quickFlashPieces beat on color) :=
  ⟨_, List.mem_cons_self, h⟩

lemma quickPieces_hasLong (h : quickPieces s = .ok ps)
    (hcounts : ∀ counts, s.counts = .ok counts → ∀ n ∈ counts, 0 < n) : HasLong ps := by
  obtain ⟨color, flash, -, rfl, hps⟩ := exists_of_quickPieces h
  have hflash := quickFlashPieces_hasLong (@shortest_lt_quickFlash s.subject.type)
    (quickBeat s.subject.type) color
  rcases hps with rfl | ⟨counts, pause, hread, rfl⟩
  · exact hflash
  · exact (hflash.repeated (headD_pos (hcounts counts hread))).append _

lemma interruptedCount_pos {count : Nat} (h : interruptedCount s = .ok count)
    (hcounts : ∀ counts, s.counts = .ok counts → ∀ n ∈ counts, 0 < n) : 0 < count := by
  rw [interruptedCount] at h
  split at h
  · obtain ⟨counts, hread, rfl⟩ := map_eq_ok_iff.mp h
    exact headD_pos (hcounts counts hread)
  · obtain rfl := Except.ok.inj h
    decide

lemma interruptedQuickPieces_hasLong (h : interruptedQuickPieces s = .ok ps)
    (hcounts : ∀ counts, s.counts = .ok counts → ∀ n ∈ counts, 0 < n) : HasLong ps := by
  obtain ⟨color, count, pause, -, hcount, rfl⟩ := exists_of_interruptedQuickPieces h
  have hlong : shortest < (1.0 : Float) * quickShare := by decide +kernel
  have hflash := quickFlashPieces_hasLong hlong 1.0 color
  exact (hflash.repeated (interruptedCount_pos hcount hcounts)).append _

/-- A slot with flashes ends with a flash and darkness. -/
lemma flashSlotPieces_hasLong {slot : Float} {color : String} {count : Nat}
    (h : flashSlotPieces slot color count = .ok ps) : HasLong ps := by
  obtain ⟨n, on, gap, used, rfl, rfl⟩ := exists_of_flashSlotPieces h
  refine ⟨_, List.mem_append_right _ List.mem_cons_self, shortest_lt_of_reaches ?_⟩
  exact reaches_maxFlash.lesser (reaches_greater_minFlash _)

lemma alternatingPieces_hasLong (h : alternatingPieces s = .ok ps)
    (htype : s.subject.type = .alternatingFlashing) : HasLong ps := by
  obtain ⟨counts, slots, n, -, -, hne, -, hps⟩ := exists_of_alternatingPieces h
  obtain ⟨count, rest, rfl⟩ := List.exists_cons_of_ne_nil hne
  obtain ⟨color, first, others, -, hfirst, -, rfl⟩ := exists_of_slotPiecesFrom_cons hps
  rw [htype] at hfirst
  exact (flashSlotPieces_hasLong hfirst).append others

/-! ### Morse lights -/

lemma mem_codeUnits {code : String} {n : Nat} (h : n ∈ codeUnits code) : n = 1 ∨ n = 3 := by
  obtain ⟨c, -, hc⟩ := List.mem_filterMap.mp h
  simp only [symbolUnits?] at hc
  split at hc
  · exact Or.inl (Option.some.inj hc).symm
  · exact Or.inr (Option.some.inj hc).symm
  · cases hc

/-- Every character has a symbol: those of the alphabet, and the letter sent for the others. -/
lemma codeUnits_lookup_ne_nil (character : String) :
    codeUnits (Morse.lookup Morse.builtin character) ≠ [] := by
  have hentries : ∀ entry ∈ Morse.builtin.entries, codeUnits entry.2 ≠ [] := by decide +kernel
  have hget {key code : String} (h : Morse.builtin.get? key = some code) : codeUnits code ≠ [] :=
    hentries (key, code) (Table.mem_entries_of_get? h)
  rw [Morse.lookup]
  cases hfirst : Morse.builtin.get? character with
  | some code => exact hget hfirst
  | none =>
    cases hsecond : Morse.builtin.get? (Text.upper character) with
    | some code => exact hget hsecond
    | none => decide +kernel

/-- The times of a dot and of a dash are long enough. -/
lemma reaches_unitsTime {unit : Float} (hunit : Reaches (-57) unit) {n : Nat} (hn : n = 1 ∨ n = 3) :
    Reaches (-57) (unitsTime unit n) := by
  have hone : ∃ hm, (Float.ofInt 1).toModel.unpack =
      .finite .positive 4503599627370496 (-52) hm := ⟨by decide, rfl⟩
  have hthree : ∃ hm, (Float.ofInt 3).toModel.unpack =
      .finite .positive 6755399441055744 (-51) hm := ⟨by decide, rfl⟩
  have htimes {x : Float} (hx : Reaches (-52) x) : Reaches (-57) (x * unit) :=
    (Reaches.mul (by decide) hx hunit).mono (by decide)
  rcases hn with rfl | rfl
  · obtain ⟨hm, hunpack⟩ := hone
    exact htimes (reaches_of_unpack hunpack (by decide))
  · obtain ⟨hm, hunpack⟩ := hthree
    exact htimes ((reaches_of_unpack hunpack (by decide)).mono (by decide))

lemma morsePieces_hasLong (h : morsePieces compiler Morse.builtin s = .ok ps) : HasLong ps := by
  obtain ⟨color, symbols, n, unit, left, -, hsymbols, rfl, rfl⟩ := exists_of_morsePieces h
  have hne : symbols ≠ [] := hsymbols ▸ codeUnits_lookup_ne_nil (sentCharacter compiler s)
  obtain ⟨symbol, hmem⟩ := List.exists_mem_of_ne_nil symbols hne
  have hsymbol : symbol = 1 ∨ symbol = 3 := mem_codeUnits (hsymbols ▸ hmem)
  refine ⟨_, List.mem_append_left _ (List.mem_flatMap.mpr ⟨symbol, hmem, List.mem_cons_self⟩), ?_⟩
  exact shortest_lt_of_reaches (reaches_unitsTime (reaches_greater_minFlash _) hsymbol)

/-! ### Empty timelines -/

/-- A light that does not share out its cycle shows something. -/
lemma pieces_hasLong (h : pieces compiler Morse.builtin s = .ok ps)
    (htype : s.subject.type.isProportional = false) : HasLong ps := by
  have hcounts (counts : List Nat) (hread : s.counts = .ok counts) : ∀ n ∈ counts, 0 < n :=
    Group.counts_pos (counts_eq_ok_iff.mp hread)
  cases ht : s.subject.type <;> rw [ht] at htype <;> simp only [pieces, ht] at h
  case quick | veryQuick | ultraQuick => exact quickPieces_hasLong h hcounts
  case interruptedQuick => exact interruptedQuickPieces_hasLong h hcounts
  case alternatingFlashing => exact alternatingPieces_hasLong h ht
  case morse => exact morsePieces_hasLong h
  all_goals cases htype

/-- **When a timeline is empty.**  The text is no characteristic, or it is a light that shares out a
cycle of which every piece is too short to be shown. -/
theorem compileText_eq_nil_iff {text : String} {ts : Timeline Float}
    (h : Compiler.standard.compileText Morse.builtin text = .ok ts) :
    ts = [] ↔ (Characteristic.read? text : Option (Characteristic Float)) = none ∨
      ∃ c ps, Characteristic.read? text = some c ∧ c.type.isProportional = true ∧
        pieces Compiler.standard Morse.builtin (Setup.of Compiler.standard c) = .ok ps ∧
        ∀ p ∈ ps, ¬ (shortest : Float) < p.duration := by
  cases hread : (Characteristic.read? text : Option (Characteristic Float)) with
  | none =>
    rw [compileText, hread] at h
    obtain rfl := Except.ok.inj h
    simp
  | some c =>
    rw [compileText_of_read? hread] at h
    obtain ⟨ps, hps, hnil⟩ := applyRule_eq_nil_iff h
    simp only [reduceCtorEq, false_or, Option.some.injEq]
    rw [hnil]
    constructor
    · intro hshort
      refine ⟨c, ps, rfl, ?_, hps, hshort⟩
      by_contra hother
      obtain ⟨p, hp, hlong⟩ := pieces_hasLong hps (Bool.eq_false_iff.mpr hother)
      exact hshort p hp hlong
    · rintro ⟨c', ps', rfl, -, hps', hshort⟩
      rw [hps] at hps'
      obtain rfl := Except.ok.inj hps'
      exact hshort

/-- A fixed light with a cycle that is too short to be shown: all its pieces are too short. -/
theorem faint_text_pieces_short :
    ∃ c ps, Characteristic.read? "F W .0000000005s" = some c ∧ c.type.isProportional = true ∧
      pieces Compiler.standard Morse.builtin (Setup.of Compiler.standard c) = .ok ps ∧
      ∀ p ∈ ps, ¬ (shortest : Float) < p.duration := by
  have hts : (Compiler.standard : Compiler Float).compileText Morse.builtin
      "F W .0000000005s" = .ok [] := by
    decide +kernel
  have hread : (Characteristic.read? "F W .0000000005s" : Option (Characteristic Float)) ≠ none := by
    decide +kernel
  exact ((compileText_eq_nil_iff hts).mp rfl).resolve_left hread

/-- A text that is a characteristic and has the empty timeline. -/
theorem faint_text_is_blank :
    (∃ c : Characteristic Float, Characteristic.read? "F W .0000000005s" = some c) ∧
      (Compiler.standard : Compiler Float).compileText Morse.builtin "F W .0000000005s" =
        .ok [] := by
  have hread : (Characteristic.read? "F W .0000000005s" : Option (Characteristic Float)) =
      some ⟨.fixed, none, ["W"], some 5e-10⟩ := by
    decide +kernel
  have hts : (Compiler.standard : Compiler Float).compileText Morse.builtin
      "F W .0000000005s" = .ok [] := by
    decide +kernel
  exact ⟨⟨_, hread⟩, hts⟩

end Compiler

end Seamark
