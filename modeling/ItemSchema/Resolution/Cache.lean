import ItemSchema.Resolution.Candidate

/-! Answers kept per occurrence.

An entry holds for one question against one generation of the model; asked
anything else, the cache has no answer. Each entry is numbered when it is
written, so that two answers can be told to be one and the same entry.
-/

set_option autoImplicit false

namespace ItemSchema

structure CacheEntry where
  generation : Generation
  question : Question
  candidates : List Candidate
  -- the number of the write that made the entry
  serial : Nat
  deriving DecidableEq

/-- Whether an entry answers a question against a generation of the model. -/
def CacheEntry.answers (entry : CacheEntry) (question : Question) (generation : Generation) : Bool :=
  entry.generation = generation && entry.question = question

structure Cache where
  entries : Table Occurrence CacheEntry := .empty
  -- how many entries were ever written
  written : Nat := 0
  deriving DecidableEq

namespace Cache

def empty : Cache := {}

def size (cache : Cache) : Nat := cache.entries.size

def get? (cache : Cache) (occurrence : Occurrence) (question : Question) (generation : Generation) :
    Option CacheEntry :=
  (cache.entries.find? occurrence).filter (·.answers question generation)

/-- Write the entry of an occurrence, over any entry it had. -/
def put (cache : Cache) (occurrence : Occurrence) (question : Question) (generation : Generation)
    (candidates : List Candidate) : Cache :=
  { entries := cache.entries.insert occurrence
      { generation, question, candidates, serial := cache.written }
    written := cache.written + 1 }

def drop (cache : Cache) (covered : Occurrence → Bool) : Cache :=
  { cache with entries := cache.entries.filterKeys (!covered ·) }

def invalidate (cache : Cache) (occurrence : Occurrence) : Cache := cache.drop (· = occurrence)

def invalidateScope (cache : Cache) (document : FileId) (scope : UInt32) : Cache :=
  cache.drop fun occurrence => occurrence.document = document && occurrence.scope = scope

def invalidateDocument (cache : Cache) (document : FileId) : Cache :=
  cache.drop fun occurrence => occurrence.document = document

/-- An edit at an occurrence drops it with its siblings. -/
def occurrenceChanged (cache : Cache) (occurrence : Occurrence) : Cache :=
  cache.invalidateScope occurrence.document occurrence.scope

def invalidateAll (cache : Cache) : Cache := { cache with entries := .empty }

def lost (before after : Cache) : Nat := before.size - after.size

/-- A call that may change a cache. -/
inductive Call where
  | put (occurrence : Occurrence) (question : Question) (generation : Generation)
      (candidates : List Candidate)
  | invalidate (occurrence : Occurrence)
  | invalidateScope (document : FileId) (scope : UInt32)
  | invalidateDocument (document : FileId)
  | occurrenceChanged (occurrence : Occurrence)
  | invalidateAll
  deriving DecidableEq

/-- What a call returns. -/
inductive Reply where
  | done
  -- whether the occurrence had an entry
  | wasCached (present : Bool)
  -- how many entries were dropped
  | dropped (count : Nat)
  deriving DecidableEq, Repr

/-- The reply of a call that counts the entries it drops, with the cache it leaves. -/
def countLost (before after : Cache) : Reply × Cache := (.dropped (before.lost after), after)

/-- Carry out a call: its reply, and the cache after it. -/
def perform (cache : Cache) : Call → Reply × Cache
  | .put occurrence question generation candidates =>
      (.done, cache.put occurrence question generation candidates)
  | .invalidate occurrence =>
      (.wasCached (cache.entries.contains occurrence), cache.invalidate occurrence)
  | .invalidateScope document scope => cache.countLost (cache.invalidateScope document scope)
  | .invalidateDocument document => cache.countLost (cache.invalidateDocument document)
  | .occurrenceChanged occurrence => cache.countLost (cache.occurrenceChanged occurrence)
  | .invalidateAll => (.done, cache.invalidateAll)

end Cache

end ItemSchema
