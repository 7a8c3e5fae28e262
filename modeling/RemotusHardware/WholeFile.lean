import RemotusHardware.Grammar

/-! # What the syntax check covers

A file gets past the syntax check as soon as its text begins with a JSON value.  The check covers
the whole file exactly if the file is not `Damaged` (`readConfig_whole_iff`): if it holds no NUL,
and nothing but white space follows the value.  `Damaged` speaks of the bytes of the file, the
pieces they come in and the grammar of the values. -/

namespace RemotusHardware

open CLib Scanner Picojson

section
variable (round : ℚ → Double)

/-- The file is one JSON value with white space around it. -/
def WholeValue (file : List UInt8) : Prop :=
  ∃ before text after v, file = before ++ text ++ after ∧ Blank before ∧ Blank after ∧
    Picojson.parse round text = some (v, [])

/-- The pieces of the file, each up to its first NUL, begin with a JSON value, but there is a NUL in
the file, or something else than white space behind the value. -/
def Damaged (file : List UInt8) : Prop :=
  ∃ pieces, Pieces file pieces ∧ ∃ before text rest v,
    uptoNul pieces = before ++ (text ++ rest) ∧ Blank before ∧ JsonValue round text v ∧
      (IsNumber v → Ends isNumberChar rest) ∧ ((0 : UInt8) ∈ file ∨ ¬ Blank rest)

end

section
variable {round : ℚ → Double}

/-- A file that is one value is one without a NUL of which `_parse` leaves white space. -/
theorem wholeValue_iff {file : List UInt8} : WholeValue round file ↔
    (0 : UInt8) ∉ file ∧ ∃ v rest, Picojson.parse round file = some (v, rest) ∧ Blank rest := by
  constructor
  · rintro ⟨before, text, after, v, rfl, hbefore, hafter, h⟩
    obtain ⟨c, hc, -, hgood, hext⟩ := parse_prefix round h
    rw [List.append_nil] at hc
    subst hc
    have h' := hext after fun _ => blank_ends hafter
    refine ⟨?_, v, after, ?_, hafter⟩
    · simp only [List.mem_append, not_or]
      exact ⟨⟨blank_nonzero hbefore, fun h0 => hgood 0 h0 rfl⟩, blank_nonzero hafter⟩
    · rw [List.append_assoc]
      exact parse_blank_append hbefore h'
  · rintro ⟨-, v, rest, h, hrest⟩
    obtain ⟨c, rfl, -, -, hext⟩ := parse_prefix round h
    have h' := hext [] fun _ => by simp [Ends]
    rw [List.append_nil] at h'
    exact ⟨[], c, rest, v, rfl, by simp [Blank], hrest, h'⟩

/-- What `_parse` makes of a damaged file. -/
theorem damaged_iff {file : List UInt8} : Damaged round file ↔
    ∃ v rest, Picojson.parse round (textOf file).bytes = some (v, rest) ∧
      ((0 : UInt8) ∈ file ∨ ¬ Blank rest) := by
  constructor
  · rintro ⟨pieces, hpieces, before, text, rest, v, htext, hbefore, hvalue, hends, hbad⟩
    refine ⟨v, rest, ?_, hbad⟩
    rw [textOf_eq hpieces]
    exact (parse_iff round).mpr ⟨before, text, htext, hbefore, hvalue, hends⟩
  · rintro ⟨v, rest, hparse, hbad⟩
    obtain ⟨pieces, hpieces⟩ := exists_pieces file
    rw [textOf_eq hpieces] at hparse
    obtain ⟨before, text, htext, hbefore, hvalue, hends⟩ := (parse_iff round).mp hparse
    exact ⟨pieces, hpieces, before, text, rest, v, htext, hbefore, hvalue, hends, hbad⟩

/-- The syntax check covers the whole file exactly if the file is not damaged. -/
theorem readConfig_whole_iff (round : ℚ → Double) (file : List UInt8) :
    (readConfig round (some file) ≠ errorConfig 2 → WholeValue round file) ↔
      ¬ Damaged round file := by
  rw [Ne, readConfig_errorConfig_two, wholeValue_iff, damaged_iff]
  constructor
  · rintro h ⟨v, rest, hparse, hbad⟩
    obtain ⟨h0, v', rest', hparse', hblank⟩ := h (by rw [hparse]; simp)
    rw [textOf_nul_free h0, hparse'] at hparse
    obtain ⟨rfl, rfl⟩ : v' = v ∧ rest' = rest := by simpa using hparse
    rcases hbad with hbad | hbad
    · exact h0 hbad
    · exact hbad hblank
  · intro h hsome
    obtain ⟨⟨v, rest⟩, hparse⟩ := Option.ne_none_iff_exists'.mp hsome
    have h0 : (0 : UInt8) ∉ file := fun h0 => h ⟨v, rest, hparse, .inl h0⟩
    have hblank : Blank rest := by
      by_contra hblank
      exact h ⟨v, rest, hparse, .inr hblank⟩
    rw [textOf_nul_free h0] at hparse
    exact ⟨h0, v, rest, hparse, hblank⟩

end

/-- A configuration with a brace too many. -/
def braceTooMany : List UInt8 :=
  ascii ("\x7b\"configSensors\":[],\"pass\":\"secret\",\"port\":1883," ++
    "\"server\":\"192.168.1.10\",\"user\":\"farm\"\x7d\x7d")

/-- The brace is left unread, and nobody looks. -/
theorem braceTooMany_accepted : readConfig Double.finite (some braceTooMany) ≠ errorConfig 2 ∧
    ¬ WholeValue Double.finite braceTooMany := by
  have h0 : (0 : UInt8) ∉ braceTooMany := by decide +kernel
  have hrest : (Picojson.parse Double.finite braceTooMany).map (·.2) = some [125] := by
    decide +kernel
  obtain ⟨⟨v, rest⟩, hparse, rfl⟩ := Option.map_eq_some_iff.mp hrest
  rw [Ne, readConfig_errorConfig_two, wholeValue_iff, textOf_nul_free h0, hparse]
  refine ⟨by simp, ?_⟩
  rintro ⟨-, v', rest', h, hblank⟩
  obtain ⟨-, rfl⟩ : v = v' ∧ [125] = rest' := by simpa using h
  exact absurd (hblank 125 (by decide)) (by decide)

end RemotusHardware
