import Mathlib.Data.List.Forall2

/-!
# Results that may be errors

When a result that goes through further steps is a value, and when it is an error. A list of items
that each may fail has a result if all of them have one, place by place. A search through a list ends
with the first item that has one.
-/

namespace Except

variable {ε α β : Type}

theorem map_eq_ok_iff {result : Except ε α} {change : α → β} {value : β} :
    result.map change = .ok value ↔ ∃ before, result = .ok before ∧ change before = value := by
  cases result <;> simp [Except.map]

theorem map_eq_error_iff {result : Except ε α} {change : α → β} {error : ε} :
    result.map change = .error error ↔ result = .error error := by
  cases result <;> simp [Except.map]

theorem bind_eq_ok_iff {result : Except ε α} {next : α → Except ε β} {value : β} :
    result.bind next = .ok value ↔ ∃ before, result = .ok before ∧ next before = .ok value := by
  cases result <;> simp [Except.bind]

theorem bind_eq_error_iff {result : Except ε α} {next : α → Except ε β} {error : ε} :
    result.bind next = .error error ↔
      result = .error error ∨ ∃ before, result = .ok before ∧ next before = .error error := by
  cases result <;> simp [Except.bind]

theorem not_exists_ok_iff {result : Except ε α} :
    (¬∃ value, result = .ok value) ↔ ∃ error, result = .error error := by
  cases result <;> simp

end Except

namespace List

variable {α β : Type} {items : List α}

theorem mapM_eq_some_iff {read? : α → Option β} {values : List β} :
    items.mapM read? = some values ↔ items.map read? = values.map some := by
  induction items generalizing values with
  | nil => cases values <;> simp
  | cons item rest ih =>
      simp only [mapM_cons, Option.bind_eq_bind, Option.bind_eq_some_iff, Option.pure_def,
        Option.some.injEq, ih]
      constructor
      · rintro ⟨value, read, others, othersRead, rfl⟩
        simp [read, othersRead]
      · intro read
        cases values with
        | nil => simp at read
        | cons value others =>
            rw [map_cons, map_cons, cons.injEq] at read
            exact ⟨value, read.1, others, read.2, rfl⟩

theorem mapM_eq_some_iff_forall₂ {read? : α → Option β} {R : α → β → Prop} {values : List β}
    (reads : ∀ item value, read? item = some value ↔ R item value) :
    items.mapM read? = some values ↔ Forall₂ R items values := by
  rw [mapM_eq_some_iff, ← forall₂_eq_eq_eq, forall₂_map_left_iff, forall₂_map_right_iff]
  simp only [reads]

theorem exists_forall₂_iff {R : α → β → Prop} :
    (∃ values, Forall₂ R items values) ↔ ∀ item ∈ items, ∃ value, R item value := by
  induction items with
  | nil => simp
  | cons item rest ih =>
      rw [forall_mem_cons, ← ih]
      constructor
      · rintro ⟨values, related⟩
        cases related with
        | cons here later => exact ⟨⟨_, here⟩, _, later⟩
      · rintro ⟨⟨value, here⟩, values, later⟩
        exact ⟨value :: values, Forall₂.cons here later⟩

section Related

variable {R : α → β → Prop} {others : List β}

theorem Forall₂.countP_eq (related : Forall₂ R items others) {p : α → Bool} {q : β → Bool}
    (agree : ∀ item other, R item other → (p item ↔ q other)) :
    items.countP p = others.countP q := by
  induction related with
  | nil => rfl
  | cons here _ ih =>
      have same := Bool.eq_iff_iff.mpr (agree _ _ here)
      rw [countP_cons, countP_cons, ih, same]

theorem Forall₂.exists_mem_iff (related : Forall₂ R items others) {p : α → Prop} {q : β → Prop}
    (agree : ∀ item other, R item other → (p item ↔ q other)) :
    (∃ item ∈ items, p item) ↔ ∃ other ∈ others, q other := by
  induction related with
  | nil => simp
  | cons here _ ih => simp [ih, agree _ _ here]

end Related

/-- A result of the first item that has any. -/
def FirstResult (HasResult : α → β → Prop) (items : List α) (result : β) : Prop :=
  ∃ before item after, items = before ++ item :: after ∧
    (∀ earlier ∈ before, ∀ other, ¬HasResult earlier other) ∧ HasResult item result

def NoResult (HasResult : α → β → Prop) (items : List α) : Prop :=
  ∀ item ∈ items, ∀ result, ¬HasResult item result

variable {HasResult : α → β → Prop} {result : β}

theorem FirstResult.not_noResult (first : FirstResult HasResult items result) :
    ¬NoResult HasResult items := by
  rcases first with ⟨before, item, after, rfl, _, hasResult⟩
  exact fun none => none item (by simp) result hasResult

theorem exists_firstResult_iff :
    (∃ result, FirstResult HasResult items result) ↔ ¬NoResult HasResult items := by
  constructor
  · rintro ⟨result, first⟩
    exact first.not_noResult
  · intro notNone
    induction items with
    | nil => exact absurd (forall_mem_nil _) notNone
    | cons item rest ih =>
        by_cases here : ∃ result, HasResult item result
        · rcases here with ⟨result, hasResult⟩
          exact ⟨result, [], item, rest, rfl, forall_mem_nil _, hasResult⟩
        · have later : ¬NoResult HasResult rest := by
            intro noneLater
            exact notNone (forall_mem_cons.mpr ⟨not_exists.mp here, noneLater⟩)
          rcases ih later with ⟨result, before, found, after, rfl, noneBefore, hasResult⟩
          exact ⟨result, item :: before, found, after, rfl,
            forall_mem_cons.mpr ⟨not_exists.mp here, noneBefore⟩, hasResult⟩

section Search

variable {find? : α → Option β}
  (finds : ∀ item ∈ items, ∀ result, find? item = some result ↔ HasResult item result)

include finds

theorem find?_eq_none_iff_of_finds {item : α} (itemMem : item ∈ items) :
    find? item = none ↔ ∀ result, ¬HasResult item result := by
  simp only [Option.eq_none_iff_forall_ne_some, ne_eq, finds item itemMem]

theorem findSome?_eq_some_iff_firstResult :
    items.findSome? find? = some result ↔ FirstResult HasResult items result := by
  rw [findSome?_eq_some_iff]
  constructor
  · rintro ⟨before, item, after, rfl, found, noneBefore⟩
    refine ⟨before, item, after, rfl, ?_, (finds item (by simp) result).mp found⟩
    intro earlier earlierMem
    exact (find?_eq_none_iff_of_finds finds (by simp [earlierMem])).mp
      (noneBefore earlier earlierMem)
  · rintro ⟨before, item, after, rfl, noneBefore, hasResult⟩
    refine ⟨before, item, after, rfl, (finds item (by simp) result).mpr hasResult, ?_⟩
    intro earlier earlierMem
    exact (find?_eq_none_iff_of_finds finds (by simp [earlierMem])).mpr
      (noneBefore earlier earlierMem)

theorem findSome?_eq_none_iff_noResult :
    items.findSome? find? = none ↔ NoResult HasResult items := by
  rw [findSome?_eq_none_iff]
  apply forall₂_congr
  intro item itemMem
  exact find?_eq_none_iff_of_finds finds itemMem

end Search

end List
