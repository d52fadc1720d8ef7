import Ascent.Proofs.Merge
import Ascent.Proofs.Telling
import Ascent.Save.Written

/-!
What the records that are left after a merge have from those that were merged.

Of several records of one name the first one stays, and the later ones are laid over it. Each field
that does not tell who or what the record is comes from the last of the later records in which it
was ever set, and from the first record where there is none; so nothing that was set is lost to a
default. The fields that count as set grow along with the merge.

Main exports: `RecordKind`, `RecordKind.Inherits`, `RecordKind.Reconciles`,
`RecordKind.Overlays.reconciles`, `nothing_set_is_lost`.
-/

namespace Ascent

open Text

/-! ### Kinds of records -/

/-- Records of a kind as a merge sees them: what stands in a field of a record, the fields that were
ever set in it, the name that it goes by, and the fields that tell who or what it is. -/
structure RecordKind (α F : Type) where
  content : F → α → Content
  given : α → List F
  called : α → String
  identity : List F

namespace RecordKind

/-- The kind of records that are kept along with the fields set in them. -/
def beside {α F : Type} [Named α] (content : F → α → Content) (nameField : F) :
    RecordKind (α × List F) F where
  content f r := content f r.1
  given := Prod.snd
  called r := fold (name r.1)
  identity := [nameField]

variable {α F : Type} [DecidableEq F]

/-- A record has from the first and the later records of its name what was set there: who it is from
the first one, and every other field from the last one of the later records that set it. -/
structure Inherits (k : RecordKind α F) (first : α) (later : List α) (m : α) : Prop where
  content : ∀ f, k.content f m = k.content f
    (if f ∈ k.identity then first else (later.filter (f ∈ k.given ·)).getLast?.getD first)
  given : ∀ f, f ∈ k.given m ↔ f ∈ k.given first ∨ f ∉ k.identity ∧ ∃ r ∈ later, f ∈ k.given r

/-- A merge that leaves one record of each name, in the order of first appearance, with all that was
set in the records of the name, and that has nothing to do where names are distinct. -/
structure Reconciles (k : RecordKind α F) (merge : List α → List α) : Prop where
  names : ∀ records, (merge records).map k.called = (records.map k.called).eraseDups
  fields : ∀ records, ∀ m ∈ merge records, ∃ first later,
    records.filter (k.called · == k.called m) = first :: later ∧ k.Inherits first later m
  again : ∀ records, merge (merge records) = merge records
  distinct : ∀ records, (records.map k.called).Nodup → merge records = records

/-- To lay a record over another one takes over just the fields that are set in it and do not tell
who it is. -/
structure Overlays (k : RecordKind α F) (overlay : α → α → α) : Prop where
  called : ∀ a b, k.called (overlay a b) = k.called a
  content : ∀ f a b, k.content f (overlay a b) =
    if f ∈ k.given b ∧ f ∉ k.identity then k.content f b else k.content f a
  given : ∀ f a b, f ∈ k.given (overlay a b) ↔ f ∈ k.given a ∨ f ∈ k.given b ∧ f ∉ k.identity

variable {k : RecordKind α F} {overlay : α → α → α}

/-- Records laid over a first one, one after another: what the last one sets, counts. -/
theorem Overlays.inherits (h : k.Overlays overlay) (first : α) (later : List α) :
    k.Inherits first later (later.foldl overlay first) := by
  induction later using List.reverseRecOn with
  | nil => exact ⟨fun f => by simp, fun f => by simp⟩
  | append_singleton rest r ih =>
      rw [List.foldl_append, List.foldl_cons, List.foldl_nil]
      refine ⟨fun f => ?_, fun f => ?_⟩
      · rw [h.content, ih.content, List.filter_append]
        by_cases own : f ∈ k.identity
        · simp [own]
        · by_cases set : f ∈ k.given r <;> simp [own, set]
      · rw [h.given, ih.given]
        simp only [List.mem_append, List.mem_singleton]
        constructor
        · rintro ((first | ⟨other, r', member, set⟩) | ⟨set, other⟩)
          · exact .inl first
          · exact .inr ⟨other, r', .inl member, set⟩
          · exact .inr ⟨other, r, .inr rfl, set⟩
        · rintro (first | ⟨other, r', member | rfl, set⟩)
          · exact .inl (.inl first)
          · exact .inl (.inr ⟨other, r', member, set⟩)
          · exact .inr ⟨set, other⟩

/-- A merge by names that lays records over one another in this way reconciles them. -/
theorem Overlays.reconciles (h : k.Overlays overlay) :
    k.Reconciles (mergeBy k.called overlay) where
  names := map_key_mergeBy h.called
  fields records m member := by
    have kept : m ∈ (mergeBy k.called overlay records).filter (k.called · == k.called m) :=
      List.mem_filter.mpr ⟨member, beq_self_eq_true _⟩
    rw [filter_mergeBy h.called] at kept
    have named : ∀ r ∈ records.filter (k.called · == k.called m), k.called r = k.called m :=
      fun r there => eq_of_beq (List.mem_filter.mp there).2
    cases same : records.filter (k.called · == k.called m) with
    | nil =>
        rw [same] at kept
        cases kept
    | cons first later =>
        rw [same] at kept named
        have own := named first List.mem_cons_self
        rw [mergeBy_of_one_key h.called fun r there =>
          (named r (List.mem_cons_of_mem first there)).trans own.symm] at kept
        exact ⟨first, later, rfl, List.mem_singleton.mp kept ▸ h.inherits first later⟩
  again records := mergeBy_eq_self (nodup_key_mergeBy h.called records)
  distinct _ := mergeBy_eq_self

/-! ### Records that are kept along with their set fields -/

/-- Fields that are taken over one by one hold what they hold in the source. -/
theorem content_takeAll {content : F → α → Content} {take : F → α → α → α}
    (taken : ∀ f g source target,
      content f (take g source target) = content f (if f = g then source else target))
    (f : F) (fields : List F) (source target : α) :
    content f (takeAll take fields source target) =
      if f ∈ fields then content f source else content f target :=
  get_takeAll (content f) (fun source target => by rw [taken, if_pos rfl])
    (fun g other source target => by rw [taken, if_neg (Ne.symm other)]) fields source target

/-- A merge of records of which each has a name in one field and its parts in the others. -/
theorem reconciles_mergeRecords [Named α] {content : F → α → Content} {nameField : F}
    {take : F → α → α → α}
    (taken : ∀ f g source target,
      content f (take g source target) = content f (if f = g then source else target))
    (named : ∀ r : α, content nameField r = .value (.text (name r))) :
    (beside content nameField).Reconciles (mergeRecords nameField take) := by
  have own (a b : α) (fields : List F) :
      content nameField (takeAll take (fields.filter (· ≠ nameField)) b a) =
        content nameField a := by
    rw [content_takeAll taken, if_neg (by simp)]
  refine Overlays.reconciles ⟨fun a b => ?_, fun f a b => ?_, fun f a b => ?_⟩
  · have same := own a.1 b.1 b.2
    rw [named, named] at same
    injection same with same
    injection same with same
    exact congrArg fold same
  · have part := content_takeAll taken f (b.2.filter (· ≠ nameField)) b.1 a.1
    simpa [beside] using part
  · simp [beside]

end RecordKind

/-! ### What stands in the records -/

namespace Person

/-- People as a merge sees them. -/
def recordKind : RecordKind Person PersonField where
  content := Person.content
  given := Person.given
  called := Person.foldedName
  identity := [.id, .name]

theorem content_take (f g : PersonField) (source target : Person) :
    content f (take g source target) = content f (if f = g then source else target) := by
  cases g <;> cases f <;> rfl

theorem mem_mergedFields {f : PersonField} {later : Person} :
    f ∈ later.mergedFields ↔ f ∈ later.given ∧ f ∉ recordKind.identity := by
  simp [mergedFields, recordKind]

theorem content_giving (f : PersonField) (fields : List PersonField) (p : Person) :
    content f (p.giving fields) = content f p := by
  cases f <;> rfl

theorem given_takeAll (fields : List PersonField) (source target : Person) :
    (takeAll take fields source target).given = target.given :=
  List.foldlRecOn fields _ (motive := fun p : Person => p.given = target.given) rfl
    fun p same f _ => by cases f <;> exact same

theorem recordKind_overlays : recordKind.Overlays overlay where
  called := foldedName_overlay
  content f earlier later := by
    refine (content_giving f _ _).trans ?_
    rw [RecordKind.content_takeAll content_take]
    simp only [mem_mergedFields]
    rfl
  given f earlier later := by
    refine (mem_given_giving _ _ f).trans ?_
    rw [given_takeAll, mem_mergedFields]
    rfl

end Person

/-- What stands in a field of a skill. -/
def Skill.content (f : SkillField) (s : Skill) : Content :=
  match f with
  | .name => .value (.text s.name)
  | .description => .value (.text s.description)
  | .resourceCost => .number s.resourceCost
  | .effect => .value (.text s.effect)
  | .proficiency => .number s.proficiency
  | .maxProficiency => .number s.maxProficiency
  | .proficiencyTier => .value (.text s.proficiencyTier)

/-- What stands in a field of a status effect. -/
def StatusEffect.content (f : StatusField) (e : StatusEffect) : Content :=
  match f with
  | .name => .value (.text e.name)
  | .description => .value (.text e.description)
  | .kind => .value (.text e.kind.word)
  | .duration => .ofInt? e.duration
  | .modifiers => .bonuses e.modifiers

/-- **Merging duplicate names loses nothing that was set**, of people and of every other kind of
record: one record of each name is left, in the order of first appearance; it is the first one of
the name, and each of its other fields comes from the last later record in which it was set. Records
of distinct names stay as they are, and so does what a merge has left. -/
theorem nothing_set_is_lost :
    Person.recordKind.Reconciles mergePeople ∧
    (RecordKind.beside Item.content .name).Reconciles (mergeRecords .name Item.take) ∧
    (RecordKind.beside Skill.content .name).Reconciles (mergeRecords .name Skill.take) ∧
    (RecordKind.beside LoreEntry.content .name).Reconciles (mergeRecords .name LoreEntry.take) ∧
    (RecordKind.beside Faction.content .name).Reconciles (mergeRecords .name Faction.take) ∧
    (RecordKind.beside StatusEffect.content .name).Reconciles
      (mergeRecords .name StatusEffect.take) := by
  refine ⟨Person.recordKind_overlays.reconciles, ?_, ?_, ?_, ?_, ?_⟩ <;>
    refine RecordKind.reconciles_mergeRecords (fun f g source target => ?_) fun _ => rfl
  all_goals cases g <;> cases f <;> rfl

-- the last record of Mo sets a place only, so the description of the one before it stands
example :
    (mergePeople [{ id := "1", name := "Mo", description := "old", given := [.description] },
      { id := "2", name := "Bo" },
      { id := "3", name := "MO", description := "new", given := [.id, .name, .description] },
      { id := "4", name := "mo", location := "Hall", given := [.location] }]).map
        (fun p => (p.id, p.name, p.description, p.location)) =
      [("1", "Mo", "new", "Hall"), ("2", "Bo", "", "")] := by
  decide +kernel

end Ascent
