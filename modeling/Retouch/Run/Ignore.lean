import Retouch.Run.World

/-!
# Ignored paths

A set of paths that a directory run leaves out, each with everything below it. Paths are put into
the set in normal form and compared by components, so the spelling does not matter; a path that is
already there is not added again.

Users write some entries relative to the target, as `./vendor`. Such an entry is taken to mean the
path below the target if that path exists, and else is left as it is written.
-/

namespace Retouch

/-- Paths in normal form, no two of them the same. -/
structure IgnoreSet where
  paths : List Path := []
deriving DecidableEq, Repr, Inhabited

namespace IgnoreSet

/-- The set with one more path. -/
def insert (ignored : IgnoreSet) (store : FileStore) (path : Path) : IgnoreSet :=
  let normal := store.normalize path
  if ignored.paths.any normal.same then ignored else ⟨ignored.paths ++ [normal]⟩

/-- The set of some paths. -/
def ofPaths (store : FileStore) (paths : List Path) : IgnoreSet :=
  paths.foldl (fun ignored path => ignored.insert store path) {}

/-- Whether a path is in the set or below one that is. -/
def contains (ignored : IgnoreSet) (store : FileStore) (path : Path) : Bool :=
  let normal := store.normalize path
  ignored.paths.any normal.beginsWith

/-- Number of paths. -/
def length (ignored : IgnoreSet) : Nat :=
  ignored.paths.length

/-- Whether there is no path. -/
def isEmpty (ignored : IgnoreSet) : Bool :=
  ignored.paths.isEmpty

end IgnoreSet

/-- What follows `./` or `.\` at the start of a path. -/
def Path.afterDot? (path : Path) : Option Path :=
  match path.raw.toList with
  | '.' :: '/' :: rest => some ⟨String.ofList rest⟩
  | '.' :: '\\' :: rest => some ⟨String.ofList rest⟩
  | _ => none

namespace FileStore

/-- The directory that entries relative to a target start from: the target, or the directory it is
in. -/
def baseOf (store : FileStore) (target : Path) : Path :=
  if store.isDirectory target then target else target.parent?.getD ⟨""⟩

/-- The path that an entry means, if it is relative to the target and exists there. -/
def resolveEntry? (store : FileStore) (target entry : Path) : Option Path := do
  let rest ← entry.afterDot?
  let candidate := (store.baseOf target).join rest
  if store.pathExists candidate then some (store.normalize candidate) else none

/-- The paths that entries mean, and a diagnostic for each that is resolved. -/
def resolveEntries (store : FileStore) (target : Path) (entries : List Path) :
    List Path × List Event :=
  let resolved := entries.map fun entry => (entry, store.resolveEntry? target entry)
  (resolved.map fun (entry, path) => path.getD entry,
    resolved.filterMap fun (entry, path) => path.map fun path =>
      .diagnostic ⟨.debug, "resolved ignore path", [("from", entry.raw), ("to", path.raw)]⟩)

end FileStore

end Retouch
