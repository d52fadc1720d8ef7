import Ascent.Knowledge
import Ascent.Proofs.Puts

/-!
Updates of the knowledge index that come in batches.

A call hands over one document for each identifier among its updates. What it leaves in the store is
what its updates leave one by one, an update being put under its identifier, so only their order
counts and not where one batch ends and the next begins.

Main exports: `Upsert.Answers`, `KnowledgeIndex.publishAll`, `KnowledgeIndex.Publishes`,
`KnowledgeIndex.publishAll_eq_single`.
-/

namespace Ascent

/-! ### What a call hands over -/

/-- The last of some updates for an identifier. -/
def lastFor? (updates : List IndexUpdate) (id : String) : Option IndexUpdate :=
  (updates.filter (·.key == id)).getLast?

theorem last?_map_key (updates : List IndexUpdate) (id : String) :
    Pairs.last? (updates.map fun u => (u.key, u)) id = lastFor? updates id := by
  rw [Pairs.last?_eq_getLast?, List.filter_map, List.getLast?_map, Option.map_map]
  exact Option.map_id'

/-- Lists side by side that answer to updates: equally long, with the identifiers in the order in
which the updates first bring them up, none of them twice, and at each place the text and the mark
of the last update for the identifier. -/
structure Upsert.Answers (batch : Upsert) (updates : List IndexUpdate) : Prop where
  length_texts : batch.texts.length = batch.ids.length
  length_marks : batch.marks.length = batch.ids.length
  ids_eq : batch.ids = (updates.map IndexUpdate.key).eraseDups
  distinct : batch.ids.Nodup
  aligned : ∀ (place : Nat) (id : String), batch.ids[place]? = some id →
    ∃ u, lastFor? updates id = some u ∧ batch.texts[place]? = some u.content ∧
      batch.marks[place]? = some { kind := u.kind, id := u.id }

namespace KnowledgeIndex

theorem ids_of_latest (updates : List IndexUpdate) :
    (Upsert.of (latest updates)).ids = (updates.map IndexUpdate.key).eraseDups := by
  show (latest updates).map Prod.fst = _
  rw [latest, Pairs.map_fst_ofList, List.map_map]
  rfl

theorem answers_of_latest (updates : List IndexUpdate) :
    (Upsert.of (latest updates)).Answers updates where
  length_texts := by simp [Upsert.of]
  length_marks := by simp [Upsert.of]
  ids_eq := ids_of_latest updates
  distinct := by
    rw [ids_of_latest]
    exact nodup_eraseDups _
  aligned := by
    intro place id there
    simp only [Upsert.of, List.getElem?_map, Option.map_eq_some_iff] at there
    obtain ⟨⟨_, u⟩, there, rfl⟩ := there
    refine ⟨u, ?_, by simp [Upsert.of, there], by simp [Upsert.of, there]⟩
    rw [← last?_map_key, ← Pairs.get?_ofList]
    exact Pairs.get?_of_mem (Pairs.nodup_ofList _) (List.mem_of_getElem? there)

theorem latest_eq_nil_iff {updates : List IndexUpdate} : latest updates = [] ↔ updates = [] := by
  rw [← List.map_eq_nil_iff (f := Prod.fst), latest, Pairs.map_fst_ofList]
  cases updates <;> simp [List.eraseDups_cons]

/-- A call with updates writes the documents that they leave, side by side. -/
theorem publish_of_ne_nil (index : KnowledgeIndex) {updates : List IndexUpdate}
    (any : updates ≠ []) :
    index.publish updates =
      ((Upsert.of (latest updates)).ids.length,
        { index with
          store := index.store.upsert index.collection (Upsert.of (latest updates)) }) := by
  refine if_neg ?_
  rw [List.isEmpty_iff, latest_eq_nil_iff]
  exact any

/-- What a call with updates comes to: nothing where there are none, and else one write of lists
that answer to the updates, and the number of identifiers written. -/
inductive Publishes (index : KnowledgeIndex) : List IndexUpdate → Nat × KnowledgeIndex → Prop where
  | idle : Publishes index [] (0, index)
  | wrote {updates : List IndexUpdate} {batch : Upsert} (any : updates ≠ [])
      (answers : batch.Answers updates) :
      Publishes index updates
        (batch.ids.length, { index with store := index.store.upsert index.collection batch })

theorem publishes_publish (index : KnowledgeIndex) (updates : List IndexUpdate) :
    index.Publishes updates (index.publish updates) := by
  by_cases none : updates = []
  · subst none
    exact .idle
  · rw [publish_of_ne_nil index none]
    exact .wrote none (answers_of_latest updates)

end KnowledgeIndex

/-! ### What a call leaves in the store -/

/-- The collections of a store after updates that are put one by one under their identifiers, in
the collection of a name. -/
def filed (collection : String) (updates : List IndexUpdate) (kept : Pairs Collection) :
    Pairs Collection :=
  updates.foldl
    (fun kept u => kept.put collection (((kept.get? collection).getD []).put u.key u)) kept

theorem filed_append (collection : String) (first later : List IndexUpdate)
    (kept : Pairs Collection) :
    filed collection (first ++ later) kept =
      filed collection later (filed collection first kept) :=
  List.foldl_append

/-- Filing updates changes one collection, in which they are put one by one. -/
theorem filed_eq_put {updates : List IndexUpdate} (any : updates ≠ []) (collection : String)
    (kept : Pairs Collection) :
    filed collection updates kept =
      kept.put collection
        (updates.foldl (fun documents u => documents.put u.key u)
          ((kept.get? collection).getD [])) := by
  induction updates generalizing kept with
  | nil => exact absurd rfl any
  | cons u rest ih =>
      rw [filed, List.foldl_cons, ← filed]
      by_cases last : rest = []
      · subst last
        rfl
      · rw [ih last, Pairs.put_put_self, Pairs.get?_put, if_pos rfl]
        rfl

namespace KnowledgeStore

variable (s : KnowledgeStore) (collection : String)

/-- Opening a collection and putting documents in it is putting them in it. -/
theorem put_collections_ensureOpen (documents : Collection) :
    (s.ensureOpen collection).collections.put (s.fullName collection) documents =
      s.collections.put (s.fullName collection) documents := by
  unfold ensureOpen
  split
  · rfl
  · exact Pairs.put_put_self _ _ _ _

theorem family_ensureOpen : (s.ensureOpen collection).family = s.family := by
  unfold ensureOpen
  split <;> rfl

theorem collections_write (documents : Collection) :
    (s.write collection documents).collections =
      s.collections.put (s.fullName collection)
        (documents.foldl (fun kept (id, u) => kept.put id u) (s.documents collection)) := by
  rw [← documents_ensureOpen s collection collection, ← put_collections_ensureOpen]
  rfl

theorem family_write (documents : Collection) : (s.write collection documents).family = s.family :=
  family_ensureOpen s collection

end KnowledgeStore

namespace KnowledgeIndex

variable (index : KnowledgeIndex)

/-- The name of the collection that an index uses, in full. -/
def home : String := index.store.fullName index.collection

theorem collections_publish (updates : List IndexUpdate) :
    (index.publish updates).2.store.collections =
      filed index.home updates index.store.collections := by
  by_cases none : updates = []
  · subst none
    rfl
  · rw [publish_of_ne_nil index none]
    dsimp only
    rw [KnowledgeStore.upsert, Upsert.documents_of, KnowledgeStore.collections_write,
      filed_eq_put none, latest, Pairs.foldl_put_ofList, List.foldl_map]
    rfl

theorem home_publish (updates : List IndexUpdate) :
    (index.publish updates).2.home = index.home := by
  by_cases none : updates = []
  · subst none
    rfl
  · rw [publish_of_ne_nil index none]
    dsimp only [home, KnowledgeStore.upsert, KnowledgeStore.fullName]
    rw [KnowledgeStore.family_write]

/-! ### Batches -/

/-- The index after batches of updates, with a call for each. -/
def publishAll (batches : List (List IndexUpdate)) : KnowledgeIndex :=
  batches.foldl (fun index updates => (index.publish updates).2) index

/-- What batches leave in the store is what their updates leave one by one. -/
theorem collections_publishAll (batches : List (List IndexUpdate)) :
    (index.publishAll batches).store.collections =
      filed index.home batches.flatten index.store.collections := by
  induction batches generalizing index with
  | nil => rfl
  | cons updates rest ih =>
      rw [publishAll, List.foldl_cons, ← publishAll, ih, home_publish, collections_publish,
        List.flatten_cons, filed_append]

theorem home_publishAll (batches : List (List IndexUpdate)) :
    (index.publishAll batches).home = index.home :=
  List.foldlRecOn batches _ (motive := fun after : KnowledgeIndex => after.home = index.home) rfl
    fun after same updates _ => (home_publish after updates).trans same

/-- The document that an index holds under an identifier. -/
def document? (id : String) : Option IndexUpdate :=
  (index.store.documents index.collection).get? id

theorem document?_publishAll (batches : List (List IndexUpdate)) (id : String) :
    (index.publishAll batches).document? id =
      (lastFor? batches.flatten id).or (index.document? id) := by
  have found : (index.publishAll batches).document? id =
      (((filed index.home batches.flatten index.store.collections).get? index.home).getD []).get?
        id := by
    rw [← collections_publishAll, ← home_publishAll index batches]
    rfl
  rw [found]
  by_cases none : batches.flatten = []
  · rw [none]
    rfl
  · rw [filed_eq_put none, Pairs.get?_put, if_pos rfl, Option.getD_some,
      ← List.foldl_map (f := fun u : IndexUpdate => (u.key, u))
        (g := fun (documents : Collection) p => documents.put p.1 p.2),
      Pairs.get?_foldl_put, last?_map_key]
    rfl

/-- How updates are cut into batches does not matter: the collections are left as they are by one
call for each update, and an identifier has the document of the last update for it. Each call hands
over lists that answer to its own updates, and none where it has no updates. -/
theorem publishAll_eq_single (batches : List (List IndexUpdate)) :
    (index.publishAll batches).store.collections =
        (index.publishAll (batches.flatten.map fun u => [u])).store.collections ∧
      (∀ id, (index.publishAll batches).document? id =
        (lastFor? batches.flatten id).or (index.document? id)) ∧
      ∀ updates, index.Publishes updates (index.publish updates) := by
  refine ⟨?_, document?_publishAll index batches, publishes_publish index⟩
  have same : (batches.flatten.map fun u => [u]).flatten = batches.flatten := by
    rw [← List.flatMap_def, List.flatMap_singleton']
  rw [collections_publishAll, collections_publishAll, same]

/-- The last update for an identifier stands in the place of the first. -/
example : Upsert.of (latest [⟨"elder_mo", "npc", "first"⟩, ⟨"blood_sect", "faction", "sect"⟩,
      ⟨"elder_mo", "npc", "second"⟩]) =
    { ids := ["npc:elder_mo", "faction:blood_sect"], texts := ["second", "sect"],
      marks := [⟨"npc", "elder_mo"⟩, ⟨"faction", "blood_sect"⟩] } := by
  decide +kernel

end KnowledgeIndex
end Ascent
