import DataFilter.Specification

/-!
# A cache of templates

The cache reads each template once and then hands out what it has. What it hands out is shared: the
serial number tells which reading a specification comes from. A template with a fault is not kept.
-/

namespace DataFilter

/-- A specification that the cache handed out. Two are the same if their serial numbers are. -/
structure Shared where
  serial : Nat
  specification : Specification

/-- The specifications by template. -/
structure Templates where
  entries : Entries Shared
  /-- How many templates have been read. -/
  issued : Nat

namespace Templates

/-- Nothing read yet. -/
def empty : Templates := ⟨[], 0⟩

/-- Keeps what was read of a template, unless one is there by now: then that one is handed out. -/
def keep (cache : Templates) (template : String) (read : Specification) : Shared × Templates :=
  let issued := cache.issued + 1
  match cache.entries.get? template with
  | some present => (present, { cache with issued := issued })
  | none =>
    let shared : Shared := ⟨cache.issued, read⟩
    (shared, ⟨cache.entries.insert template shared, issued⟩)

/-- The specification of a template, read if it is not there. -/
def getOrParse (cache : Templates) (template : String) : Except SyntaxError (Shared × Templates) :=
  match cache.entries.get? template with
  | some shared => .ok (shared, cache)
  | none => do
    let read ← Specification.parse template
    return cache.keep template read

/-- How many templates are kept. -/
def size (cache : Templates) : Nat := cache.entries.length

def isEmpty (cache : Templates) : Bool := cache.entries.isEmpty

/-- Forgets all templates. What was handed out stays as it is. -/
def clear (cache : Templates) : Templates := { cache with entries := [] }

end Templates

end DataFilter
