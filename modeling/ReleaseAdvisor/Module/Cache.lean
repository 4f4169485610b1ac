import ReleaseAdvisor.Module.Legacy

/-!
# The cache of legacy documents

The last good reading of each legacy document, by path. It never answers for the file: a reload
forgets the old reading, reads the file and keeps the new reading if that succeeds, so a broken
file is never hidden by an older good one.
-/

namespace ReleaseAdvisor

/-- Readings by path; paths that name the same place share an entry. -/
structure LegacyCache where
  readings : List (Path × LegacySource)

namespace LegacyCache

def empty : LegacyCache :=
  ⟨[]⟩

def get? (cache : LegacyCache) (path : Path) : Option LegacySource :=
  (cache.readings.find? fun reading => reading.1.same path).map (·.2)

def forget (cache : LegacyCache) (path : Path) : LegacyCache :=
  ⟨cache.readings.filter fun reading => !reading.1.same path⟩

def keep (cache : LegacyCache) (path : Path) (source : LegacySource) : LegacyCache :=
  ⟨(path, source) :: (cache.forget path).readings⟩

def invalidate (cache : LegacyCache) (path : Path) : Bool × LegacyCache :=
  ((cache.get? path).isSome, cache.forget path)

def reload (cache : LegacyCache) (files : FileSystem) (path : Path) :
    Except ConfigError LegacySource × LegacyCache :=
  let forgotten := cache.forget path
  match LegacySource.read files path with
  | .ok source => (.ok source, forgotten.keep path source)
  | .error error => (.error error, forgotten)

end LegacyCache

end ReleaseAdvisor
