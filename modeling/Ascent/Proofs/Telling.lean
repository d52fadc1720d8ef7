import Ascent.Command.Inventory
import Ascent.Command.Knowledge
import Ascent.Command.People
import Ascent.Proofs.Naming

/-!
What arguments tell of the fields of a record.

Several keys may stand for one field, a value may be blank, and not every text can be read as what
the field holds. What is told of a field is the last value that remains, and setting the fields of a
record makes each hold what it is told, or leaves it as it was; who or what the record is stays.

Main exports: `Params.told`, `fieldValue?_pickFields`, `Content`, `Recorded`, `Retold`, `Settable`,
`retold_pickFields`, `RetoldIn`.
-/

namespace Ascent

open Text

/-! ### The value that is told -/

section

variable {F : Type} [DecidableEq F] {f g : F} {v : FieldValue} {fields : List (F × FieldValue)}

/-- What arguments tell of a field: the last of the values that are given under its keys, are not
blank and can be read. -/
def Params.told (params : Params) (keys : List (String × F)) (kind : F → FieldKind) (f : F) :
    Option FieldValue :=
  (params.filterMap fun (key, text) =>
    if keys.lookup (compactKey key) = some f then
      (text.filter fun raw => !isBlankText raw).bind (kind f).read?
    else none).getLast?

theorem fieldValue?_putField :
    fieldValue? (putField g v fields) f = if g = f then some v else fieldValue? fields f := by
  induction fields with
  | nil =>
      by_cases same : g = f
      · simp [putField, fieldValue?, same]
      · simp [putField, fieldValue?, same]
  | cons first rest ih =>
      obtain ⟨h, w⟩ := first
      rw [putField]
      split
      · next known =>
          subst known
          by_cases same : h = f
          · simp [fieldValue?, same]
          · simp [fieldValue?, same]
      · next other =>
          by_cases same : h = f
          · subst same
            simp [fieldValue?, Ne.symm other]
          · simpa [fieldValue?, same] using ih

/-- Of fields that are set one after another, the last one counts. -/
theorem fieldValue?_foldl_putField (picked : List (F × FieldValue)) :
    fieldValue? (picked.foldl (fun fields (g, v) => putField g v fields) fields) f =
      (picked.filterMap fun (g, v) => if g = f then some v else none).getLast?.or
        (fieldValue? fields f) := by
  induction picked generalizing fields with
  | nil => rfl
  | cons first rest ih =>
      obtain ⟨g, v⟩ := first
      rw [List.foldl_cons, ih, fieldValue?_putField]
      by_cases same : g = f
      · rw [if_pos same, List.filterMap_cons_some (b := v) (by simp [same]), List.getLast?_cons]
        cases (rest.filterMap fun (g, v) => if g = f then some v else none).getLast? <;> rfl
      · rw [if_neg same, List.filterMap_cons_none (by simp [same])]

/-- The fields that arguments set are those that something is told of. -/
theorem fieldValue?_pickFields (keys : List (String × F)) (kind : F → FieldKind) (params : Params)
    (f : F) : fieldValue? (pickFields keys kind params) f = params.told keys kind f := by
  rw [pickFields, fieldValue?_foldl_putField, List.filterMap_filterMap, Params.told]
  change Option.or _ none = _
  rw [Option.or_none]
  congr 2
  funext ⟨key, text⟩
  unfold pickField?
  cases field : keys.lookup (compactKey key) with
  | none => simp [field]
  | some g =>
      cases text with
      | none => simp
      | some raw =>
          by_cases blank : isBlankText raw = true
          · simp [Option.filter, blank]
          · by_cases same : g = f
            · subst same
              cases read : (kind g).read? raw <;>
                simp [field, Option.filter, blank, read]
            · cases read : (kind g).read? raw <;> simp [field, blank, read, same]

theorem nodup_putField (distinct : (fields.map Prod.fst).Nodup) :
    ((putField g v fields).map Prod.fst).Nodup := by
  induction fields with
  | nil => exact List.nodup_singleton g
  | cons first rest ih =>
      obtain ⟨fresh, distinct⟩ := List.nodup_cons.mp distinct
      rw [putField]
      split
      · next same => exact List.nodup_cons.mpr ⟨same ▸ fresh, distinct⟩
      · next other =>
          refine List.nodup_cons.mpr ⟨fun known => ?_, ih distinct⟩
          obtain ⟨x, member, same⟩ := List.mem_map.mp known
          rcases mem_putField member with old | rfl
          · exact fresh (same ▸ List.mem_map_of_mem old)
          · exact other same.symm

theorem nodup_pickFields (keys : List (String × F)) (kind : F → FieldKind) (params : Params) :
    ((pickFields keys kind params).map Prod.fst).Nodup :=
  List.foldlRecOn _ _
    (motive := fun fields : List (F × FieldValue) => (fields.map Prod.fst).Nodup) List.nodup_nil
    fun _ distinct _ _ => nodup_putField distinct

/-- Nothing is told of a field without a key. -/
theorem told_eq_none {keys : List (String × F)} {kind : F → FieldKind} {params : Params}
    (keyless : f ∉ keys.map Prod.snd) : params.told keys kind f = none := by
  rw [← fieldValue?_pickFields, fieldValue?, Option.map_eq_none_iff, List.find?_eq_none]
  intro x member same
  exact keyless (of_decide_eq_true same ▸ (of_mem_pickFields member).1)

end

/-- A value of the shape that fields of a kind hold. -/
def FieldKind.Fits : FieldKind → FieldValue → Prop
  | .name, .text _ => True
  | .text, .text _ => True
  | .list, .texts _ => True
  | .percent, .percent _ => True
  | _, _ => False

theorem FieldKind.fits_of_read? {kind : FieldKind} {raw : String} {v : FieldValue}
    (read : kind.read? raw = some v) : kind.Fits v := by
  cases kind with
  | name => exact Option.some.inj read ▸ trivial
  | text => exact Option.some.inj read ▸ trivial
  | list => exact Option.some.inj read ▸ trivial
  | percent =>
      obtain ⟨n, _, rfl⟩ := Option.map_eq_some_iff.mp read
      trivial

/-! ### Records -/

/-- What stands in a field of a record. -/
inductive Content where
  | value (v : FieldValue)
  | nothing
  | number (n : Int)
  | truth (b : Bool)
  | stats (s : Option StatBlock)
  | flags (flags : Pairs Flag)
  | emotion (e : Option Emotion)
  | bonuses (bonuses : Pairs String)
deriving DecidableEq

/-- What stands in a field that holds a text or nothing. -/
def Content.ofText? : Option String → Content
  | some s => .value (.text s)
  | none => .nothing

/-- What stands in a field that holds a number or nothing. -/
def Content.ofInt? : Option Int → Content
  | some n => .number n
  | none => .nothing

/-- Records with fields that arguments may set: what stands in a field, how it is read, and how it
is set. Fields of the identity tell who or what a record is, and are never set. -/
class Recorded (α : Type) (F : outParam Type) where
  content : F → α → Content
  kind : F → FieldKind
  put : F → FieldValue → α → α
  identity : List F
  settable : List F
  put_identity : ∀ f ∈ identity, ∀ v a, put f v a = a
  content_put_of_ne : ∀ f g v a, f ≠ g → content f (put g v a) = content f a
  content_put : ∀ f ∈ settable, ∀ v, (kind f).Fits v → ∀ a, content f (put f v a) = .value v

export Recorded (content)

/-- A record told anew: it is the same one, and each field, those set aside apart, holds what it was
told or else what it held before. -/
structure Retold {α F : Type} [Recorded α F] (told : F → Option Content) (aside : List F)
    (before after : α) : Prop where
  identity : ∀ f ∈ Recorded.identity α, content f after = content f before
  field : ∀ f, f ∉ Recorded.identity α → f ∉ aside →
    content f after = (told f).getD (content f before)

section

variable {α F : Type} [Recorded α F] {told told' : F → Option Content} {aside aside' : List F}
  {before after : α}

/-- Fields that are told something else may be set aside. -/
theorem Retold.congr (h : Retold told aside before after)
    (same : ∀ f, f ∉ aside' → f ∉ aside ∧ told f = told' f) :
    Retold told' aside' before after := by
  refine ⟨h.identity, fun f other kept => ?_⟩
  obtain ⟨kept, told⟩ := same f kept
  rw [← told]
  exact h.field f other kept

/-- What stands in the fields afterwards may be said of another record in which the same stands. -/
theorem Retold.of_content {r : α} (h : Retold told aside before after)
    (identity : ∀ f ∈ Recorded.identity α, f ∉ aside')
    (same : ∀ f, f ∉ aside' → content f r = content f after) (more : ∀ f ∈ aside, f ∈ aside') :
    Retold told aside' before r :=
  ⟨fun f own => (same f (identity f own)).trans (h.identity f own),
    fun f other kept => (same f kept).trans (h.field f other fun old => kept (more f old))⟩

end

section

variable {α F : Type} [DecidableEq F] [Recorded α F] {fields : List (F × FieldValue)} {f : F}
  {a : α}

theorem content_foldl_put_of_identity (own : f ∈ Recorded.identity α)
    (fields : List (F × FieldValue)) (a : α) :
    content f (fields.foldl (fun a (g, v) => Recorded.put g v a) a) = content f a := by
  refine get_foldl_put (content f) (fun g v a => ?_) fields a
  by_cases same : f = g
  · rw [← same, Recorded.put_identity f own]
  · exact Recorded.content_put_of_ne f g v a same

/-- Fields that may be set on a record: each is there once, with a value of its kind. -/
structure Settable (α : Type) {F : Type} [Recorded α F] (fields : List (F × FieldValue)) :
    Prop where
  distinct : (fields.map Prod.fst).Nodup
  fits : ∀ x ∈ fields, x.1 ∉ Recorded.identity α →
    x.1 ∈ Recorded.settable α ∧ (Recorded.kind α x.1).Fits x.2

/-- Fields set one after another: each holds what it was set to, or what it held before. -/
theorem content_foldl_put (settable : Settable α fields) (other : f ∉ Recorded.identity α) :
    content f (fields.foldl (fun a (g, v) => Recorded.put g v a) a) =
      ((fieldValue? fields f).map .value).getD (content f a) := by
  obtain ⟨distinct, fits⟩ := settable
  induction fields generalizing a with
  | nil => rfl
  | cons first rest ih =>
      obtain ⟨g, v⟩ := first
      obtain ⟨fresh, distinct⟩ := List.nodup_cons.mp distinct
      rw [List.foldl_cons, ih distinct fun x member => fits x (List.mem_cons_of_mem _ member)]
      by_cases same : g = f
      · subst same
        obtain ⟨settable, fit⟩ := fits (g, v) List.mem_cons_self other
        have later : fieldValue? rest g = none := by
          rw [fieldValue?, Option.map_eq_none_iff, List.find?_eq_none]
          intro x member same
          exact fresh (List.mem_map.mpr ⟨x, member, of_decide_eq_true same⟩)
        rw [later, Recorded.content_put g settable v fit]
        simp [fieldValue?]
      · rw [Recorded.content_put_of_ne f g v a (Ne.symm same)]
        simp [fieldValue?, same]

/-- Setting fields tells a record anew. -/
theorem Settable.retold (settable : Settable α fields) (a : α) :
    Retold (fun f => (fieldValue? fields f).map .value) [] a
      (fields.foldl (fun a (g, v) => Recorded.put g v a) a) :=
  ⟨fun _ own => content_foldl_put_of_identity own fields a,
    fun _ other _ => content_foldl_put settable other⟩

theorem Settable.putField {g : F} {v : FieldValue} (h : Settable α fields)
    (settable : g ∈ Recorded.settable α) (fits : (Recorded.kind α g).Fits v) :
    Settable α (Ascent.putField g v fields) := by
  refine ⟨nodup_putField h.distinct, fun x member other => ?_⟩
  rcases mem_putField member with old | rfl
  · exact h.fits x old other
  · exact ⟨settable, fits⟩

theorem settable_pickFields {keys : List (String × F)}
    (known : ∀ f ∈ keys.map Prod.snd, f ∈ Recorded.settable α ∨ f ∈ Recorded.identity α)
    (params : Params) : Settable α (pickFields keys (Recorded.kind α) params) := by
  refine ⟨nodup_pickFields keys _ params, fun x member other => ?_⟩
  obtain ⟨key, raw, read⟩ := of_mem_pickFields member
  exact ⟨(known x.1 key).resolve_right other, FieldKind.fits_of_read? read⟩

/-- What arguments tell of the fields of a record. -/
def Params.tells (params : Params) (keys : List (String × F)) (kind : F → FieldKind) (f : F) :
    Option Content := (params.told keys kind f).map .value

/-- Setting the fields that arguments set tells a record what the arguments tell of it. -/
theorem retold_pickFields {keys : List (String × F)}
    (known : ∀ f ∈ keys.map Prod.snd, f ∈ Recorded.settable α ∨ f ∈ Recorded.identity α)
    (params : Params) (a : α) :
    Retold (params.tells keys (Recorded.kind α)) [] a
      ((pickFields keys (Recorded.kind α) params).foldl (fun a (g, v) => Recorded.put g v a)
        a) := by
  refine ((settable_pickFields known params).retold a).congr fun f kept => ⟨kept, ?_⟩
  rw [fieldValue?_pickFields, Params.tells]

end

/-! ### A record in its place -/

/-- The record that a name means stays in its place, and is told anew. -/
def RetoldIn {α F : Type} [Named α] [Recorded α F] (records after : List α) (called : String)
    (told : α → F → Option Content) (aside : List F) : Prop :=
  ∀ place known, findNamed? records called = some (place, known) →
    ∃ r, after[place]? = some r ∧ Retold (told known) aside known r

section

variable {α F : Type} [Named α] [Recorded α F] {records after : List α} {called : String}
  {told : α → F → Option Content} {aside : List F} {place : Nat} {known r : α}

theorem retoldIn_of_none (none : findNamed? records called = none) :
    RetoldIn records after called told aside := by
  intro place known found
  rw [none] at found
  cases found

theorem retoldIn_of_found (found : findNamed? records called = some (place, known))
    (there : after[place]? = some r) (retold : Retold (told known) aside known r) :
    RetoldIn records after called told aside := by
  intro place' known' found'
  obtain ⟨rfl, rfl⟩ := Prod.mk.inj (Option.some.inj (found.symm.trans found'))
  exact ⟨r, there, retold⟩

/-- A record that is written where one was found is there. -/
theorem getElem?_set_of_found (found : findNamed? records called = some (place, known)) (r : α) :
    (records.set place r)[place]? = some r := by
  have bound := (List.getElem?_eq_some_iff.mp (getElem?_of_findNamed? found)).1
  rw [List.getElem?_set_self bound]

theorem retoldIn_set (found : findNamed? records called = some (place, known))
    (retold : Retold (told known) aside known r) :
    RetoldIn records (records.set place r) called told aside :=
  retoldIn_of_found found (getElem?_set_of_found found r) retold

theorem RetoldIn.congr {told' : α → F → Option Content} {aside' : List F}
    (h : RetoldIn records after called told aside)
    (same : ∀ known f, f ∉ aside' → f ∉ aside ∧ told known f = told' known f) :
    RetoldIn records after called told' aside' := by
  intro place known found
  obtain ⟨r, there, retold⟩ := h place known found
  exact ⟨r, there, retold.congr (same known)⟩

end

/-! ### The kinds of records -/

/-- What stands in a field of a person. -/
def Person.content (f : PersonField) (p : Person) : Content :=
  match f with
  | .id => .value (.text p.id)
  | .name => .value (.text p.name)
  | .description => .value (.text p.description)
  | .personality => .value (.text p.personality)
  | .thoughtsOnPlayer => .value (.text p.thoughtsOnPlayer)
  | .physicalState => .value (.text p.physicalState)
  | .category => .value (.text p.category)
  | .location => .value (.text p.location)
  | .tags => .value (.texts p.tags)
  | .tier => .ofText? p.tier
  | .stats => .stats p.stats
  | .affinity => .number p.affinity
  | .memoryFlags => .flags p.memoryFlags
  | .emotion => .emotion p.emotion
  | .archetype => .ofText? p.archetype
  | .aptitude => .ofText? p.aptitude
  | .physique => .ofText? p.physique
  | .spiritualRoot => .ofText? p.spiritualRoot
  | .race => .ofText? p.race
  | .title => .ofText? p.title
  | .resistance => .value (.percent p.resistance)
  | .willpower => .value (.percent p.willpower)
  | .isAlive => .truth p.isAlive
  | .bottleneckTurns => .number p.bottleneckTurns

/-- What stands in a field of an item. -/
def Item.content (f : ItemField) (i : Item) : Content :=
  match f with
  | .name => .value (.text i.name)
  | .description => .value (.text i.description)
  | .quantity => .number i.quantity
  | .category => .value (.text i.category)
  | .rarity => .value (.text i.rarity)
  | .tier => .ofText? i.tier
  | .tags => .value (.texts i.tags)
  | .equipped => .truth i.equipped
  | .statBonuses => .bonuses i.statBonuses
  | .specialEffects => .value (.texts i.specialEffects)
  | .value => .ofInt? i.value

/-- What stands in a field of an entry. -/
def LoreEntry.content (f : LoreField) (e : LoreEntry) : Content :=
  match f with
  | .name => .value (.text e.name)
  | .entityType => .value (.text e.entityType)
  | .description => .value (.text e.description)
  | .category => .value (.text e.category)
  | .tags => .value (.texts e.tags)
  | .location => .value (.text e.location)

/-- What stands in a field of a faction. -/
def Faction.content (f : FactionField) (x : Faction) : Content :=
  match f with
  | .name => .value (.text x.name)
  | .description => .value (.text x.description)
  | .category => .value (.text x.category)
  | .tags => .value (.texts x.tags)

instance : Recorded Person PersonField where
  content := Person.content
  kind := PersonField.kind
  put := Person.put
  identity := [.id, .name]
  settable := (personKeys.map Prod.snd).filter (· ≠ .name)
  put_identity f own v p := by
    rcases List.mem_pair.mp own with rfl | rfl <;> rfl
  content_put_of_ne f g v p other := by
    cases g <;> cases f <;> first | rfl | exact absurd rfl other
  content_put f settable v fits p := by
    cases f <;> cases v <;>
      first | rfl | exact absurd settable (by decide) | exact False.elim fits

instance : Recorded Item ItemField where
  content := Item.content
  kind := ItemField.kind
  put := Item.put
  identity := [.name]
  settable := (itemKeys.map Prod.snd).filter (· ≠ .name)
  put_identity f own v i := by
    obtain rfl := List.mem_singleton.mp own
    rfl
  content_put_of_ne f g v i other := by
    cases g <;> cases f <;> first | rfl | exact absurd rfl other
  content_put f settable v fits i := by
    cases f <;> cases v <;>
      first | rfl | exact absurd settable (by decide) | exact False.elim fits

instance : Recorded LoreEntry LoreField where
  content := LoreEntry.content
  kind := LoreField.kind
  put := LoreEntry.put
  identity := [.name]
  settable := .entityType :: (loreKeys.map Prod.snd).filter (· ≠ .name)
  put_identity f own v e := by
    obtain rfl := List.mem_singleton.mp own
    rfl
  content_put_of_ne f g v e other := by
    cases g <;> cases f <;> first | rfl | exact absurd rfl other
  content_put f settable v fits e := by
    cases f <;> cases v <;>
      first | rfl | exact absurd settable (by decide) | exact False.elim fits

instance : Recorded Faction FactionField where
  content := Faction.content
  kind := FactionField.kind
  put := Faction.put
  identity := [.name]
  settable := (factionKeys.map Prod.snd).filter (· ≠ .name)
  put_identity f own v x := by
    obtain rfl := List.mem_singleton.mp own
    rfl
  content_put_of_ne f g v x other := by
    cases g <;> cases f <;> first | rfl | exact absurd rfl other
  content_put f settable v fits x := by
    cases f <;> cases v <;>
      first | rfl | exact absurd settable (by decide) | exact False.elim fits

end Ascent
