import ReleaseAdvisor.Text.Blank
import ReleaseAdvisor.Text.Uppercase

/-!
# What the upper case leaves alone

A character that neither table lists is its own upper case. Blanks and the separators of words are
not listed, and no other character has one of them in its upper case. What is listed has an upper
case of characters that are not, so taking the upper case of any of them again changes nothing.

The tables settle all this, code by code. To look a code up in them each time would take long, so
the codes that an upper case must not have are held as the bits of one number.
-/

namespace ReleaseAdvisor.Text

def blankCodes : List Nat :=
  [0x9, 0xA, 0xB, 0xC, 0xD, 0x20, 0x85, 0xA0, 0x1680, 0x2000, 0x2001, 0x2002, 0x2003, 0x2004,
    0x2005, 0x2006, 0x2007, 0x2008, 0x2009, 0x200A, 0x2028, 0x2029, 0x202F, 0x205F, 0x3000]

theorem isBlank_iff_mem_blankCodes {character : Char} :
    isBlank character ↔ character.toNat ∈ blankCodes := by
  simp only [isBlank, blankCodes, Bool.or_eq_true, Bool.and_eq_true, decide_eq_true_eq, beq_iff_eq,
    List.mem_cons, List.not_mem_nil, or_false]
  omega

/-- The codes of the blanks, of the hyphen and of the underscore. -/
def fixedCodes : List Nat :=
  blankCodes ++ [0x2D, 0x5F]

/-! ## Listed codes -/

namespace CaseRun

variable {run : CaseRun} {code : Nat}

def codes (run : CaseRun) : List Nat :=
  (List.range ((run.last - run.first) / run.stride + 1)).map fun index =>
    run.first + index * run.stride

theorem mem_codes_of_holds (inside : run.holds code) : code ∈ run.codes := by
  have bounds : (run.first ≤ code ∧ code ≤ run.last) ∧ (code - run.first) % run.stride = 0 := by
    simpa [holds] using inside
  rcases bounds with ⟨⟨fromFirst, toLast⟩, onStride⟩
  have placed : (code - run.first) / run.stride * run.stride = code - run.first :=
    Nat.div_mul_cancel (Nat.dvd_of_mod_eq_zero onStride)
  have inRange : (code - run.first) / run.stride ≤ (run.last - run.first) / run.stride :=
    Nat.div_le_div_right (Nat.sub_le_sub_right toLast run.first)
  refine List.mem_map.mpr ⟨(code - run.first) / run.stride, ?_, ?_⟩
  · exact List.mem_range.mpr (Nat.lt_succ_of_le inRange)
  · rw [placed, Nat.add_sub_cancel' fromFirst]

end CaseRun

def listedCodes : List Nat :=
  caseRuns.flatMap (·.codes) ++ caseExpansions.map (·.1)

theorem mem_listedCodes_of_holds {run : CaseRun} (runMem : run ∈ caseRuns) {code : Nat}
    (inside : run.holds code) : code ∈ listedCodes :=
  List.mem_append_left _ (List.mem_flatMap.mpr ⟨run, runMem, CaseRun.mem_codes_of_holds inside⟩)

theorem upperCase_of_unlisted {character : Char} (unlisted : character.toNat ∉ listedCodes) :
    upperCase character = [character] := by
  have unexpanded : caseExpansions.lookup character.toNat = none := by
    rw [List.lookup_eq_none_iff]
    intro entry entryMem
    rw [bne_iff_ne]
    intro same
    exact unlisted (List.mem_append_right _ (List.mem_map.mpr ⟨entry, entryMem, same.symm⟩))
  have unshifted : caseRuns.find? (·.holds character.toNat) = none := by
    rw [List.find?_eq_none]
    exact fun run runMem inside => unlisted (mem_listedCodes_of_holds runMem inside)
  simp only [upperCase, unexpanded, unshifted]

/-- A number that is no code is read as the null character. -/
theorem toNat_ofNat_or_null (code : Nat) :
    (Char.ofNat code).toNat = code ∨ Char.ofNat code = '\x00' := by
  rw [Char.ofNat]
  by_cases valid : code.isValidChar
  · rw [dif_pos valid]
    exact Or.inl rfl
  · rw [dif_neg valid]
    exact Or.inr rfl

/-! ## Codes as bits -/

def codeBits (codes : List Nat) : Nat :=
  codes.foldr (fun code bits => 1 <<< code ||| bits) 0

theorem testBit_codeBits {codes : List Nat} {code : Nat} :
    (codeBits codes).testBit code = decide (code ∈ codes) := by
  induction codes with
  | nil => simp [codeBits]
  | cons first rest ih =>
      rw [codeBits, List.foldr_cons, Nat.testBit_or, ← codeBits, ih, Nat.one_shiftLeft,
        Nat.testBit_two_pow]
      simp [eq_comm]

theorem not_mem_of_testBit {codes : List Nat} {code : Nat}
    (unset : (codeBits codes).testBit code = false) : code ∉ codes := by
  simpa [testBit_codeBits] using unset

def avoidedCodes : List Nat :=
  listedCodes ++ fixedCodes

theorem fixed_unlisted : ∀ code ∈ fixedCodes, (codeBits listedCodes).testBit code = false := by
  decide +kernel

theorem shifted_avoids : ∀ run ∈ caseRuns, ∀ code ∈ run.codes,
    (codeBits avoidedCodes).testBit (code + run.shift).toNat = false := by
  decide +kernel

theorem expansion_avoids : ∀ entry ∈ caseExpansions, entry.2 ≠ [] ∧
    ∀ code ∈ entry.2, (codeBits avoidedCodes).testBit code = false := by
  decide +kernel

/-! ## The upper case of a character -/

/-- A character is its own upper case, or its upper case has codes that are neither listed nor
fixed. -/
theorem upperCase_cases (character : Char) :
    upperCase character = [character] ∨
      ∃ codes, upperCase character = codes.map Char.ofNat ∧ codes ≠ [] ∧
        ∀ code ∈ codes, code ∉ avoidedCodes := by
  simp only [upperCase]
  split
  · rename_i codes expands
    rcases List.lookup_eq_some_iff.mp expands with ⟨before, after, tableEq, _⟩
    have entryMem : (character.toNat, codes) ∈ caseExpansions := by
      simp [tableEq]
    rcases expansion_avoids _ entryMem with ⟨nonempty, avoids⟩
    refine Or.inr ⟨codes, rfl, nonempty, ?_⟩
    intro code codeMem
    exact not_mem_of_testBit (avoids code codeMem)
  · split
    · rename_i run found
      have inside : run.holds character.toNat := by
        simpa using List.find?_some found
      have avoids := shifted_avoids run (List.mem_of_find?_eq_some found) _
        (CaseRun.mem_codes_of_holds inside)
      refine Or.inr ⟨[(character.toNat + run.shift).toNat], rfl, List.cons_ne_nil _ _, ?_⟩
      exact List.forall_mem_singleton.mpr (not_mem_of_testBit avoids)
    · exact Or.inl rfl

theorem upperCase_ne_nil (character : Char) : upperCase character ≠ [] := by
  rcases upperCase_cases character with same | ⟨codes, upperEq, nonempty, _⟩
  · rw [same]
    exact List.cons_ne_nil _ _
  · rwa [upperEq, ne_eq, List.map_eq_nil_iff]

/-- The characters of an upper case are their own upper case. -/
theorem upperCase_of_mem_upperCase {character upper : Char}
    (upperMem : upper ∈ upperCase character) : upperCase upper = [upper] := by
  rcases upperCase_cases character with same | ⟨codes, upperEq, _, avoids⟩
  · rw [same, List.mem_singleton] at upperMem
    rw [upperMem, same]
  · rw [upperEq] at upperMem
    rcases List.mem_map.mp upperMem with ⟨code, codeMem, rfl⟩
    apply upperCase_of_unlisted
    rcases toNat_ofNat_or_null code with known | null
    · rw [known]
      exact fun listed => avoids code codeMem (List.mem_append_left _ listed)
    · rw [null]
      exact not_mem_of_testBit (by decide +kernel)

/-- No character has a fixed one in its upper case, but for the fixed one itself. -/
theorem eq_of_fixed_mem_upperCase {character upper : Char} (upperMem : upper ∈ upperCase character)
    (fixed : upper.toNat ∈ fixedCodes) : upper = character := by
  rcases upperCase_cases character with same | ⟨codes, upperEq, _, avoids⟩
  · rwa [same, List.mem_singleton] at upperMem
  · rw [upperEq] at upperMem
    rcases List.mem_map.mp upperMem with ⟨code, codeMem, rfl⟩
    rcases toNat_ofNat_or_null code with known | null
    · rw [known] at fixed
      exact absurd (List.mem_append_right _ fixed) (avoids code codeMem)
    · rw [null] at fixed
      exact absurd fixed (by decide)

/-- The upper case of a character is blank if the character is. -/
theorem all_isBlank_upperCase (character : Char) :
    (upperCase character).all isBlank = isBlank character := by
  have fixed_of_isBlank : ∀ {character : Char}, isBlank character →
      character.toNat ∈ fixedCodes := by
    intro character blank
    exact List.mem_append_left _ (isBlank_iff_mem_blankCodes.mp blank)
  cases blank : isBlank character with
  | true =>
      have unlisted := not_mem_of_testBit (fixed_unlisted _ (fixed_of_isBlank blank))
      simp [upperCase_of_unlisted unlisted, blank]
  | false =>
      rcases List.exists_mem_of_ne_nil _ (upperCase_ne_nil character) with ⟨upper, upperMem⟩
      refine List.all_eq_false.mpr ⟨upper, upperMem, ?_⟩
      intro upperBlank
      rw [← eq_of_fixed_mem_upperCase upperMem (fixed_of_isBlank upperBlank), upperBlank] at blank
      cases blank

end ReleaseAdvisor.Text
