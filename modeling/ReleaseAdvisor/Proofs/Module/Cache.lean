import ReleaseAdvisor.Module.Cache
import ReleaseAdvisor.Proofs.Files.SamePlace

/-!
# What the cache shows

Everything that can be asked of a cache is which reading it shows for a path. Each operation is
described by what it does to that: it sets what is shown for one path, in all its spellings, and
leaves the other paths alone.
-/

namespace ReleaseAdvisor

namespace LegacyCache

variable (cache : LegacyCache) (files : FileSystem) (path other : Path)

@[simp]
theorem get?_empty : empty.get? path = none :=
  rfl

@[simp]
theorem get?_forget :
    (cache.forget path).get? other = if path.same other then none else cache.get? other := by
  simp only [get?, forget, List.find?_filter]
  split
  · rename_i same
    rw [List.find?_eq_none.mpr]
    · rfl
    · intro reading _
      simp [Path.same_comm reading.1, Path.same_congr same]
  · rename_i different
    congr 2
    funext reading
    cases shown : reading.1.same other with
    | false => simp
    | true =>
        have kept : reading.1.same path = false := by
          rw [Path.same_congr shown, Path.same_comm]
          simpa using different
        simp [kept]

@[simp]
theorem get?_keep (source : LegacySource) :
    (cache.keep path source).get? other =
      if path.same other then some source else cache.get? other := by
  have forgotten := get?_forget cache path other
  simp only [get?, keep, List.find?_cons] at forgotten ⊢
  cases same : path.same other with
  | true => rfl
  | false => simpa [same] using forgotten

@[simp]
theorem reload_fst : (cache.reload files path).1 = LegacySource.read files path := by
  unfold reload
  split
  · rename_i source read
    exact read.symm
  · rename_i error read
    exact read.symm

/-- Reloading leaves the reading of the file, and none if the file cannot be read. -/
@[simp]
theorem get?_reload :
    (cache.reload files path).2.get? other =
      if path.same other then (LegacySource.read files path).toOption else cache.get? other := by
  unfold reload
  split
  · rename_i source read
    rw [get?_keep, get?_forget, read]
    split <;> rfl
  · rename_i error read
    rw [get?_forget, read]
    rfl

end LegacyCache

end ReleaseAdvisor
