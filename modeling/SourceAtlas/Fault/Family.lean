/-!
# Families of faults

What faults are told apart by where they are reported.

Models the classes of exceptions derived from `ContextIndexError`, as `Indexer._handle` and `main`
tell them apart.
-/

namespace SourceAtlas

/-- The family of a fault: the embedding provider, a write that was rolled back, a store that cannot
be used, a file, another fault of an index, or anything else. -/
inductive FaultFamily where
  | embedding
  | store
  | unavailable
  | io
  | index
  | other
  deriving BEq, DecidableEq, Repr

end SourceAtlas
