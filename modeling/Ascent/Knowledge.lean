import Ascent.GameState

/-!
The knowledge index: documents about what the player has come to know, kept in a store of
collections.

A document goes by its kind and identifier; writing it again replaces it in its place. What is to be
written is handed over in lists side by side: identifiers, texts and marks. The store opens a
collection when it is first used and keeps account of what it was asked to do. How well documents
match a question is the store's own affair: here they come in the order in which they were first
written.

Main exports: `Upsert`, `KnowledgeStore`, `KnowledgeStore.count`, `KnowledgeIndex`,
`KnowledgeIndex.publish`, `KnowledgeIndex.search`.
-/

namespace Ascent

/-- The identifier of a document in a collection. -/
def IndexUpdate.key (u : IndexUpdate) : String := s!"{u.kind}:{u.id}"

/-- The documents of a collection under their identifiers. -/
abbrev Collection := Pairs IndexUpdate

/-- What is noted beside the text of a document. -/
structure DocumentMark where
  kind : String
  id : String
deriving DecidableEq, Repr

/-- Documents to write, in lists side by side. -/
structure Upsert where
  ids : List String
  texts : List String
  marks : List DocumentMark
deriving DecidableEq, Repr

namespace Upsert

/-- The documents of a collection side by side. -/
def of (documents : Collection) : Upsert where
  ids := documents.map fun (id, _) => id
  texts := documents.map fun (_, u) => u.content
  marks := documents.map fun (_, u) => { kind := u.kind, id := u.id }

/-- The documents that stand at the same places of the lists. -/
def documents (batch : Upsert) : Collection :=
  (batch.ids.zip (batch.texts.zip batch.marks)).map fun (id, text, mark) =>
    (id, { id := mark.id, kind := mark.kind, content := text })

/-- Lists that were made from documents hold these and no others. -/
theorem documents_of (documents : Collection) : (of documents).documents = documents := by
  induction documents with
  | nil => rfl
  | cons first rest ih => exact congrArg (first :: ·) ih

end Upsert

/-- What a store was asked to do. -/
inductive StoreCall where
  | opened (collection : String)
  | wrote (collection : String) (documents : Collection)
  | asked (collection question : String) (limit : Int) (kind : Option String)
deriving DecidableEq, Repr

/-- A store of collections, whose names all begin with the same word. The calls are in order. -/
structure KnowledgeStore where
  family : String
  collections : Pairs Collection := []
  calls : List StoreCall := []
deriving DecidableEq, Repr

namespace KnowledgeStore

/-- The full name of a collection. -/
def fullName (s : KnowledgeStore) (collection : String) : String := s!"{s.family}_{collection}"

/-- The documents of a collection. -/
def documents (s : KnowledgeStore) (collection : String) : Collection :=
  (s.collections.get? (s.fullName collection)).getD []

/-- The store with one more call in its account. -/
def noting (s : KnowledgeStore) (call : StoreCall) : KnowledgeStore :=
  { s with calls := s.calls ++ [call] }

/-- The store with a collection opened, which is done once. -/
def ensureOpen (s : KnowledgeStore) (collection : String) : KnowledgeStore :=
  match s.collections.get? (s.fullName collection) with
  | some _ => s
  | none =>
    { s with collections := s.collections.put (s.fullName collection) [] }.noting
      (.opened (s.fullName collection))

/-- Opening a collection changes no document. -/
theorem documents_ensureOpen (s : KnowledgeStore) (opened asked : String) :
    (s.ensureOpen opened).documents asked = s.documents asked := by
  unfold ensureOpen
  split
  · rfl
  · rename_i absent
    simp only [documents, noting, Pairs.get?_put]
    split
    · rename_i same
      have sameName : s.fullName asked = s.fullName opened := same
      rw [sameName, absent]
      rfl
    · rfl

/-- The store with documents written to a collection. -/
def write (s : KnowledgeStore) (collection : String) (documents : Collection) : KnowledgeStore :=
  let opened := s.ensureOpen collection
  let merged := documents.foldl (fun kept (key, u) => kept.put key u) (opened.documents collection)
  { opened with collections := opened.collections.put (s.fullName collection) merged }.noting
    (.wrote (s.fullName collection) documents)

/-- The store with documents written that are given side by side. -/
def upsert (s : KnowledgeStore) (collection : String) (batch : Upsert) : KnowledgeStore :=
  s.write collection batch.documents

/-- The first documents of a list; a negative limit leaves out as many at the end. -/
def firstOf {α : Type} (limit : Int) (found : List α) : List α :=
  if 0 ≤ limit then found.take limit.toNat else found.take (found.length - limit.natAbs)

/-- The texts that a collection holds in answer to a question, of one kind if one is named. -/
def ask (s : KnowledgeStore) (collection question : String) (limit : Int) (kind : Option String) :
    List String × KnowledgeStore :=
  let opened := s.ensureOpen collection
  let found := (opened.documents collection).filter fun (_, u) => kind.all (u.kind == ·)
  (firstOf limit (found.map fun (_, u) => u.content),
    opened.noting (.asked (s.fullName collection) question limit kind))

/-- How many documents a collection holds. -/
def count (s : KnowledgeStore) (collection : String) : Nat × KnowledgeStore :=
  let opened := s.ensureOpen collection
  ((opened.documents collection).length, opened)

end KnowledgeStore

/-- An index: a store and the collection that it uses. -/
structure KnowledgeIndex where
  store : KnowledgeStore
  collection : String := "entities"
deriving DecidableEq, Repr

namespace KnowledgeIndex

/-- One document for each identifier, the last one of each. -/
def latest (updates : List IndexUpdate) : Collection :=
  Pairs.ofList (updates.map fun u => (u.key, u))

/-- The index with documents written, and how many these are. -/
def publish (index : KnowledgeIndex) (updates : List IndexUpdate) : Nat × KnowledgeIndex :=
  let documents := latest updates
  if documents.isEmpty then (0, index)
  else
    let batch := Upsert.of documents
    (batch.ids.length, { index with store := index.store.upsert index.collection batch })

/-- The texts in answer to a question, of one kind unless it is empty. -/
def search (index : KnowledgeIndex) (question : String) (limit : Int) (kind : Option String) :
    List String × KnowledgeIndex :=
  let (texts, store) :=
    index.store.ask index.collection question limit (kind.filter (· ≠ ""))
  (texts, { index with store := store })

/-- How many documents a collection of the store holds. -/
def count (index : KnowledgeIndex) (collection : String) : Nat × KnowledgeIndex :=
  let (n, store) := index.store.count collection
  (n, { index with store := store })

end KnowledgeIndex
end Ascent
