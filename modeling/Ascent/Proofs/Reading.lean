import Ascent.Proofs.Notation
import Ascent.Proofs.Puts
import Ascent.Proofs.Run
import Ascent.Save.Written

/-!
Records read back from their written form.

A reader that gives a value finds no problem and uses up no identifier. Every field of a record is
written under a name of its own, so each shape finds what its record wrote; what is read differs
from the record only in what is not written: which fields of a person were ever set, and whether a
lasting bonus was counted as an integer.

Main exports: `Reader.Gives`, `Shape.Reads`, `GameState.reads_toJson`.
-/

namespace Ascent

/-! ### Readers that give a value -/

namespace Reader

variable {α β : Type}

/-- A reader gives a value in every state of account and leaves the account alone. -/
def Gives (r : Reader α) (a : α) : Prop := ∀ s, r.run s = (.ok (some a), s)

theorem Gives.pure (a : α) : (Pure.pure a : Reader α).Gives a := fun _ => rfl

theorem Gives.seq {f : Reader (α → β)} {x : Reader α} {g : α → β} {a : α} (hf : f.Gives g)
    (hx : x.Gives a) : (f <*> x).Gives (g a) := by
  intro s
  show (both f fun _ => x).run s = _
  simp [both, hf s, hx s]

theorem Gives.map (g : α → β) {x : Reader α} {a : α} (hx : x.Gives a) : (g <$> x).Gives (g a) :=
  (Gives.pure g).seq hx

theorem gives_require (path : List Step) (kind : ProblemKind) (a : α) :
    (require path kind true a).Gives a := fun _ => by simp [require]

end Reader

namespace Shape

variable {α : Type}

/-- A shape reads a value as a record, wherever it stands. -/
def Reads (shape : Shape α) (j : Json) (a : α) : Prop := ∀ path, (shape path j).Gives a

theorem reads_text (s : String) : Reads text (.str s) s := fun _ => .pure s

theorem reads_integer (n : Int) : Reads integer (.int n) n := fun _ => .pure n

theorem reads_truth (b : Bool) : Reads truth (.bool b) b := fun _ => .pure b

theorem reads_number (x : Double) : Reads number (.real x) x := fun _ => .pure x

theorem reads_integerWithin {low high : Option Int} {n : Int} (above : ∀ l ∈ low, l ≤ n)
    (below : ∀ h ∈ high, n ≤ h) : Reads (integerWithin low high) (.int n) n := by
  intro path
  have least : low.any (n < ·) = false := by
    cases low <;> simp_all
  have greatest : high.any (· < n) = false := by
    cases high <;> simp_all
  simp only [integerWithin, integerOf, least, greatest]
  exact Reader.gives_require _ _ n

theorem reads_word {words : List (String × α)} {s : String} {a : α}
    (found : words.lookup s = some a) : Reads (word words) (.str s) a := by
  intro path
  simp only [word, found]
  exact .pure a

theorem reads_optional {shape : Shape α} {f : α → Json} {g : α → α} {a? : Option α}
    (reads : ∀ a ∈ a?, Reads shape (f a) (g a)) (present : ∀ a ∈ a?, f a ≠ .null) :
    Reads (optional shape) (optionalJson f a?) (a?.map g) := by
  intro path
  cases a? with
  | none => exact .pure none
  | some a =>
      have written := present a rfl
      have gives := (reads a rfl path).map some
      show (optional shape path (f a)).Gives (some (g a))
      cases same : f a with
      | null => exact absurd same written
      | _ => rw [same] at gives; exact gives

theorem reads_sameOptional {shape : Shape α} {f : α → Json} {a? : Option α}
    (reads : ∀ a ∈ a?, Reads shape (f a) a) (present : ∀ a ∈ a?, f a ≠ .null) :
    Reads (optional shape) (optionalJson f a?) a? := by
  have same := reads_optional (g := id) reads present
  rwa [Option.map_id] at same

theorem reads_list {shape : Shape α} {f : α → Json} {g : α → α} {as : List α}
    (each : ∀ a ∈ as, Reads shape (f a) (g a)) :
    Reads (list shape) (.list (as.map f)) (as.map g) := by
  intro path
  have from_ (place : Nat) : (readItems shape path place (as.map f)).Gives (as.map g) := by
    induction as generalizing place with
    | nil => exact .pure []
    | cons a rest ih =>
        have first := each a List.mem_cons_self
        have later := ih (fun b h => each b (List.mem_cons_of_mem a h))
        exact ((first _).map _).seq (later (place + 1))
  exact from_ 0

theorem reads_pairs {shape : Shape α} {f : α → Json} {g : α → α} {ps : Pairs α}
    (nodup : (ps.map Prod.fst).Nodup) (each : ∀ p ∈ ps, Reads shape (f p.2) (g p.2)) :
    Reads (pairs shape) (pairsJson f ps) (ps.map fun (name, a) => (name, g a)) := by
  intro path
  have all : (readPairs shape path (ps.map fun (name, a) => (name, f a))).Gives
      (ps.map fun (name, a) => (name, g a)) := by
    clear nodup
    induction ps with
    | nil => exact .pure []
    | cons p rest ih =>
        have first := each p List.mem_cons_self
        have later := ih (fun q h => each q (List.mem_cons_of_mem p h))
        exact ((first _).map _).seq later
  have settled := all.map Pairs.ofList
  rw [Pairs.ofList_of_nodup (by simpa [Function.comp_def] using nodup)] at settled
  exact settled

theorem reads_samePairs {shape : Shape α} {f : α → Json} {ps : Pairs α}
    (nodup : (ps.map Prod.fst).Nodup) (each : ∀ p ∈ ps, Reads shape (f p.2) p.2) :
    Reads (pairs shape) (pairsJson f ps) ps := by
  have same := reads_pairs (g := id) nodup each
  rwa [show (ps.map fun (name, a) => (name, id a)) = ps from List.map_id ps] at same

/-! ### Members -/

section

variable {members : List (String × Json)} {path : List Step} {name : String}

theorem reads_record {read : Members → Reader α} {a : α} (nodup : (members.map Prod.fst).Nodup)
    (gives : ∀ path, (members.map Prod.fst).Nodup → (read ⟨path, members⟩).Gives a) :
    Reads (record read) (.object members) a :=
  fun path => gives path nodup

/-- A member is found where the names of the members are distinct. -/
theorem gives_orElse (nodup : (members.map Prod.fst).Nodup) {shape : Shape α} (absent : Reader α)
    {j : Json} {a : α} (member : (name, j) ∈ members) (reads : Reads shape j a) :
    ((Members.mk path members).orElse name shape absent).Gives a := by
  unfold Members.orElse
  rw [Pairs.last?_of_mem nodup member]
  exact reads _

theorem gives_required (nodup : (members.map Prod.fst).Nodup) {shape : Shape α} {j : Json} {a : α}
    (member : (name, j) ∈ members) (reads : Reads shape j a) :
    ((Members.mk path members).required name shape).Gives a := gives_orElse nodup _ member reads

theorem gives_default (nodup : (members.map Prod.fst).Nodup) {shape : Shape α} {j : Json}
    {a value : α} (member : (name, j) ∈ members) (reads : Reads shape j a) :
    ((Members.mk path members).default name shape value).Gives a :=
  gives_orElse nodup _ member reads

theorem gives_text (nodup : (members.map Prod.fst).Nodup) {s : String}
    (member : (name, .str s) ∈ members) : ((Members.mk path members).text name).Gives s :=
  gives_default nodup member (reads_text s)

theorem gives_integer (nodup : (members.map Prod.fst).Nodup) {n value : Int}
    (member : (name, .int n) ∈ members) :
    ((Members.mk path members).integer name value).Gives n :=
  gives_default nodup member (reads_integer n)

theorem gives_truth (nodup : (members.map Prod.fst).Nodup) {b value : Bool}
    (member : (name, .bool b) ∈ members) : ((Members.mk path members).truth name value).Gives b :=
  gives_default nodup member (reads_truth b)

theorem gives_within (nodup : (members.map Prod.fst).Nodup) {low high n value : Int}
    (member : (name, .int n) ∈ members) (bounds : low ≤ n ∧ n ≤ high) :
    ((Members.mk path members).within name low high value).Gives n :=
  gives_default nodup member
    (reads_integerWithin (by simpa using bounds.1) (by simpa using bounds.2))

theorem gives_integer? (nodup : (members.map Prod.fst).Nodup) {n? : Option Int}
    (member : (name, optionalJson .int n?) ∈ members) :
    ((Members.mk path members).integer? name).Gives n? := by
  exact gives_default nodup member (reads_sameOptional (fun n _ => reads_integer n) (by simp))

theorem gives_text? (nodup : (members.map Prod.fst).Nodup) {s? : Option String}
    (member : (name, optionalJson .str s?) ∈ members) :
    ((Members.mk path members).text? name).Gives s? := by
  exact gives_default nodup member (reads_sameOptional (fun s _ => reads_text s) (by simp))

theorem gives_list (nodup : (members.map Prod.fst).Nodup) {shape : Shape α} {f : α → Json}
    {g : α → α} {as : List α} (member : (name, .list (as.map f)) ∈ members)
    (each : ∀ a ∈ as, Reads shape (f a) (g a)) :
    ((Members.mk path members).list name shape).Gives (as.map g) :=
  gives_default nodup member (reads_list each)

/-- A list whose items read back as they are. -/
theorem gives_sameList (nodup : (members.map Prod.fst).Nodup) {shape : Shape α} {f : α → Json}
    {as : List α} (member : (name, .list (as.map f)) ∈ members)
    (each : ∀ a ∈ as, Reads shape (f a) a) :
    ((Members.mk path members).list name shape).Gives as := by
  have gives : ((Members.mk path members).list name shape).Gives (as.map id) :=
    gives_list nodup member each
  rwa [List.map_id] at gives

theorem gives_texts (nodup : (members.map Prod.fst).Nodup) {texts : List String}
    (member : (name, textsJson texts) ∈ members) :
    ((Members.mk path members).list name text).Gives texts :=
  gives_sameList nodup member fun s _ => reads_text s

theorem reads_textPairs {ps : Pairs String} (distinct : (ps.map Prod.fst).Nodup) :
    Reads (pairs text) (pairsJson .str ps) ps := reads_samePairs distinct fun p _ => reads_text p.2

end
end Shape

/-! ### Stats -/

open Shape Reader

theorem StatusKind.lookup_word (k : StatusKind) : StatusKind.words.lookup k.word = some k := by
  cases k <;> rfl

/-- A status that a record may hold: its modifiers stand under names of their own. -/
def StatusEffect.WellFormed (e : StatusEffect) : Prop := (e.modifiers.map Prod.fst).Nodup

theorem StatusEffect.reads_toJson {e : StatusEffect} (formed : e.WellFormed) :
    Reads StatusEffect.shape e.toJson e := by
  refine reads_record (by simp) fun path nodup => ?_
  exact Gives.map _ (gives_required nodup (by simp) (reads_text e.name))
    |>.seq (gives_text nodup (by simp))
    |>.seq (gives_default nodup (by simp) (reads_word e.kind.lookup_word))
    |>.seq (gives_integer? nodup (by simp))
    |>.seq (gives_default nodup (by simp) (reads_textPairs formed))

namespace Bonus

/-- A lasting bonus as a binary64 number. -/
def number : Bonus → Double
  | .whole n => .ofInt n
  | .real x => x

/-- A lasting bonus as it is read back. -/
def reloaded (b : Bonus) : Bonus := .real b.number

/-- A bonus that a record may hold: within the finite numbers. -/
def WellFormed (b : Bonus) : Prop := b.number.isFinite

theorem reads_toJson (b : Bonus) :
    Reads (fun path j => Bonus.real <$> Shape.number path j) b.toJson b.reloaded := by
  intro path
  cases b with
  | whole n =>
      have read : (Shape.number path (Bonus.whole n).toJson).Gives (.ofInt n) := by
        by_cases finite : (Double.ofInt n).isFinite
        · rw [toJson, if_pos finite]
          exact reads_number _ path
        · rw [toJson, if_neg finite]
          exact Gives.pure _
      exact read.map _
  | real x => exact Gives.map _ (reads_number x path)

end Bonus

namespace StatBlock

/-- Stats as they are read back. -/
def reloaded (s : StatBlock) : StatBlock :=
  { s with permanentBonuses := s.permanentBonuses.map fun (key, b) => (key, b.reloaded) }

/-- Stats that a record may hold: lasting bonuses and modifiers stand under names of their own. -/
structure WellFormed (s : StatBlock) : Prop where
  names : (s.permanentBonuses.map Prod.fst).Nodup
  bonuses : ∀ b ∈ s.permanentBonuses, b.2.WellFormed
  effects : ∀ e ∈ s.statusEffects, e.WellFormed

theorem reads_toJson {s : StatBlock} (formed : s.WellFormed) :
    Reads StatBlock.shape s.toJson s.reloaded := by
  refine reads_record (by simp) fun path nodup => ?_
  exact Gives.map _ (gives_integer nodup (by simp))
    |>.seq (gives_integer nodup (by simp)) |>.seq (gives_integer nodup (by simp))
    |>.seq (gives_integer nodup (by simp)) |>.seq (gives_integer nodup (by simp))
    |>.seq (gives_integer nodup (by simp)) |>.seq (gives_integer nodup (by simp))
    |>.seq (gives_integer nodup (by simp)) |>.seq (gives_integer nodup (by simp))
    |>.seq (gives_integer nodup (by simp)) |>.seq (gives_text nodup (by simp))
    |>.seq (gives_truth nodup (by simp)) |>.seq (gives_truth nodup (by simp))
    |>.seq (gives_integer nodup (by simp)) |>.seq (gives_integer nodup (by simp))
    |>.seq (gives_integer nodup (by simp)) |>.seq (gives_integer nodup (by simp))
    |>.seq (gives_integer nodup (by simp)) |>.seq (gives_integer nodup (by simp))
    |>.seq (gives_default nodup (by simp)
      (reads_pairs formed.names fun b _ => b.2.reads_toJson))
    |>.seq (gives_sameList nodup (by simp) fun e h =>
      StatusEffect.reads_toJson (formed.effects e h))
    |>.seq (gives_integer nodup (by simp))
    |>.seq (gives_integer? nodup (by simp)) |>.seq (gives_integer? nodup (by simp))

end StatBlock

/-! ### People -/

/-- A feeling that a record may hold. -/
def Emotion.WellFormed (e : Emotion) : Prop := 0 ≤ e.intensity ∧ e.intensity ≤ 100

theorem Emotion.reads_toJson {e : Emotion} (formed : e.WellFormed) :
    Reads Emotion.shape e.toJson e := by
  refine reads_record (by simp) fun path nodup => ?_
  exact Gives.map _ (gives_required nodup (by simp) (reads_text e.label))
    |>.seq (gives_within nodup (by simp) formed)

/-- What a record may hold of a memory: no number that is not finite. -/
def Flag.WellFormed (f : Flag) : Prop := ∀ x, f = .real x → x.isFinite

theorem Flag.reads_toJson (f : Flag) : Reads Flag.shape f.toJson f := by
  intro path
  cases f <;> exact Gives.pure _

namespace Person

/-- A person as read back: every field counts as set. -/
def reloaded (p : Person) : Person :=
  { p with stats := p.stats.map StatBlock.reloaded, given := keys.map Prod.fst }

/-- A person that a record may hold. -/
structure WellFormed (p : Person) : Prop where
  stats : ∀ s ∈ p.stats, s.WellFormed
  affinity : -100 ≤ p.affinity ∧ p.affinity ≤ 100
  names : (p.memoryFlags.map Prod.fst).Nodup
  flags : ∀ f ∈ p.memoryFlags, f.2.WellFormed
  emotion : ∀ e ∈ p.emotion, e.WellFormed
  resistance : 0 ≤ p.resistance ∧ p.resistance ≤ 100
  willpower : 0 ≤ p.willpower ∧ p.willpower ≤ 100

theorem reads_toJson {p : Person} (formed : p.WellFormed) :
    Reads Person.shape p.toJson p.reloaded := by
  have stats : Reads (optional StatBlock.shape) (optionalJson StatBlock.toJson p.stats)
      (p.stats.map StatBlock.reloaded) :=
    reads_optional (fun s h => StatBlock.reads_toJson (formed.stats s h))
      (by simp [StatBlock.toJson])
  have emotion : Reads (optional Emotion.shape) (optionalJson Emotion.toJson p.emotion) p.emotion :=
    reads_sameOptional (fun e h => Emotion.reads_toJson (formed.emotion e h))
      (by simp [Emotion.toJson])
  have flags := reads_samePairs formed.names fun f _ => f.2.reads_toJson
  refine reads_record (by simp) fun path nodup => ?_
  exact Gives.map _ (gives_orElse nodup _ (by simp) (reads_text p.id))
    |>.seq (gives_required nodup (by simp) (reads_text p.name))
    |>.seq (gives_text nodup (by simp)) |>.seq (gives_text nodup (by simp))
    |>.seq (gives_text nodup (by simp)) |>.seq (gives_text nodup (by simp))
    |>.seq (gives_default nodup (by simp) (reads_text p.category))
    |>.seq (gives_text nodup (by simp)) |>.seq (gives_texts nodup (by simp))
    |>.seq (gives_text? nodup (by simp)) |>.seq (gives_default nodup (by simp) stats)
    |>.seq (gives_within nodup (by simp) formed.affinity)
    |>.seq (gives_default nodup (by simp) flags) |>.seq (gives_default nodup (by simp) emotion)
    |>.seq (gives_text? nodup (by simp)) |>.seq (gives_text? nodup (by simp))
    |>.seq (gives_text? nodup (by simp)) |>.seq (gives_text? nodup (by simp))
    |>.seq (gives_text? nodup (by simp)) |>.seq (gives_text? nodup (by simp))
    |>.seq (gives_within nodup (by simp) formed.resistance)
    |>.seq (gives_within nodup (by simp) formed.willpower)
    |>.seq (gives_truth nodup (by simp)) |>.seq (gives_integer nodup (by simp))

end Person

/-! ### What is had and known -/

theorem Item.reads_toJson {i : Item} (formed : i.WellFormed) : Reads Item.shape i.toJson i := by
  refine reads_record (by simp) fun path nodup => ?_
  exact Gives.map _ (gives_required nodup (by simp) (reads_text i.name))
    |>.seq (gives_text nodup (by simp))
    |>.seq (gives_default nodup (by simp)
      (reads_integerWithin (by simpa using formed.quantity) (by simp)))
    |>.seq (gives_default nodup (by simp) (reads_text i.category))
    |>.seq (gives_default nodup (by simp) (reads_text i.rarity))
    |>.seq (gives_text? nodup (by simp)) |>.seq (gives_texts nodup (by simp))
    |>.seq (gives_truth nodup (by simp))
    |>.seq (gives_default nodup (by simp) (reads_textPairs formed.bonuses))
    |>.seq (gives_texts nodup (by simp)) |>.seq (gives_integer? nodup (by simp))

theorem Skill.reads_toJson (s : Skill) : Reads Skill.shape s.toJson s := by
  refine reads_record (by simp) fun path nodup => ?_
  exact Gives.map _ (gives_required nodup (by simp) (reads_text s.name))
    |>.seq (gives_text nodup (by simp)) |>.seq (gives_integer nodup (by simp))
    |>.seq (gives_text nodup (by simp)) |>.seq (gives_integer nodup (by simp))
    |>.seq (gives_integer nodup (by simp))
    |>.seq (gives_default nodup (by simp) (reads_text s.proficiencyTier))

theorem LoreEntry.reads_toJson (e : LoreEntry) : Reads LoreEntry.shape e.toJson e := by
  refine reads_record (by simp) fun path nodup => ?_
  exact Gives.map _ (gives_required nodup (by simp) (reads_text e.name))
    |>.seq (gives_default nodup (by simp) (reads_text e.entityType))
    |>.seq (gives_text nodup (by simp)) |>.seq (gives_text nodup (by simp))
    |>.seq (gives_texts nodup (by simp)) |>.seq (gives_text nodup (by simp))

theorem Faction.reads_toJson (f : Faction) : Reads Faction.shape f.toJson f := by
  refine reads_record (by simp) fun path nodup => ?_
  exact Gives.map _ (gives_required nodup (by simp) (reads_text f.name))
    |>.seq (gives_text nodup (by simp)) |>.seq (gives_text nodup (by simp))
    |>.seq (gives_texts nodup (by simp))

theorem CombatRequest.reads_toJson (r : CombatRequest) : Reads CombatRequest.shape r.toJson r := by
  refine reads_record (by simp) fun path nodup => ?_
  exact Gives.map _ (gives_texts nodup (by simp)) |>.seq (gives_text nodup (by simp))

theorem reads_reputation {score : Int} (bounds : -100 ≤ score ∧ score ≤ 100) :
    Reads reputationShape (reputationJson score) score := by
  refine reads_record (by simp) fun path nodup => ?_
  exact gives_within nodup (by simp) bounds

/-! ### Settings -/

/-- Names of tiers as the settings of a world hold them: trimmed, not empty, and not none at all. -/
def Ladder.Proper (names : List String) : Prop := names ≠ [] ∧ Ladder.cleanNames names = names

/-- The settings that a world may have. -/
structure Settings.WellFormed (s : Settings) : Prop where
  majors : Ladder.Proper s.ladder.majors
  minors : Ladder.Proper s.ladder.minors

/-- Settings with the standard tiers are settings that a world may have. -/
theorem Settings.wellFormed_of_standard {s : Settings} (standard : s.ladder = Ladder.standard) :
    s.WellFormed where
  majors := by
    rw [standard]
    exact ⟨by decide, by decide +kernel⟩
  minors := by
    rw [standard]
    exact ⟨by decide, by decide +kernel⟩

theorem CombatMode.lookup_word (m : CombatMode) : CombatMode.words.lookup m.word = some m := by
  cases m <;> rfl

theorem reads_tierShape {standard names : List String} (named : Ladder.Proper names) :
    Reads (tierShape standard) (textsJson names) names := by
  intro path
  have short : (names.map Json.str).any Json.hasEndlessInteger = false := by
    simp [Json.hasEndlessInteger]
  have texts : (names.map Json.str).map (fun j => j.settled.text) = names := by
    simp [Function.comp_def, Json.settled, Json.text]
  have read : tierNames (textsJson names) = .ok names := by
    simp only [tierNames, textsJson, short, texts, named.2]
    rfl
  have some_ : names.isEmpty = false := by simpa using named.1
  simp only [tierShape, read, some_]
  exact Gives.pure names

theorem Settings.reads_toJson {s : Settings} (formed : s.WellFormed) :
    Reads Settings.shape s.toJson s := by
  refine reads_record (by simp) fun path nodup => ?_
  exact Gives.map _ (gives_truth nodup (by simp))
    |>.seq (gives_default nodup (by simp) (reads_word s.combatMode.lookup_word))
    |>.seq (gives_default nodup (by simp) (reads_tierShape formed.majors))
    |>.seq (gives_default nodup (by simp) (reads_tierShape formed.minors))
    |>.seq (gives_default nodup (by simp) (reads_text s.mortal))

/-! ### States -/

namespace GameState

/-- A state as read back. -/
def reloaded (s : GameState) : GameState :=
  { s with
    player := s.player.reloaded
    cast := .ofFn fun circle => (s.people circle).map Person.reloaded }

/-- A state that a record may hold. -/
structure WellFormed (s : GameState) : Prop where
  player : s.player.WellFormed
  people : ∀ circle, ∀ p ∈ s.people circle, p.WellFormed
  inventory : ∀ i ∈ s.inventory, i.WellFormed
  reputation : -100 ≤ s.reputation ∧ s.reputation ≤ 100
  settings : s.settings.WellFormed

theorem reads_toJson {s : GameState} (formed : s.WellFormed) :
    Reads GameState.shape s.toJson s.reloaded := by
  have request : Reads (optional CombatRequest.shape)
      (optionalJson CombatRequest.toJson s.pendingCombat) s.pendingCombat :=
    reads_sameOptional (fun r _ => r.reads_toJson) (by simp [CombatRequest.toJson])
  have each (circle : Circle) : ∀ p ∈ s.people circle, Reads Person.shape p.toJson p.reloaded :=
    fun p h => Person.reads_toJson (formed.people circle p h)
  refine reads_record (by simp [members, Circle.key]) fun path nodup => ?_
  exact Gives.map _ (gives_default nodup (by simp [members]) (StatBlock.reads_toJson formed.player))
    |>.seq (gives_text nodup (by simp [members]))
    |>.seq (gives_list nodup (by simp [members]) (each .encountered))
    |>.seq (gives_list nodup (by simp [members]) (each .companions))
    |>.seq (gives_list nodup (by simp [members]) (each .wives))
    |>.seq (gives_list nodup (by simp [members]) (each .slaves))
    |>.seq (gives_list nodup (by simp [members]) (each .prisoners))
    |>.seq (gives_sameList nodup (by simp [members]) fun i h =>
      Item.reads_toJson (formed.inventory i h))
    |>.seq (gives_sameList nodup (by simp [members]) fun k _ => k.reads_toJson)
    |>.seq (gives_sameList nodup (by simp [members]) fun e _ => e.reads_toJson)
    |>.seq (gives_sameList nodup (by simp [members]) fun f _ => f.reads_toJson)
    |>.seq (gives_texts nodup (by simp [members]))
    |>.seq (gives_default nodup (by simp [members]) request)
    |>.seq (gives_default nodup (by simp [members]) (reads_reputation formed.reputation))
    |>.seq (gives_integer nodup (by simp [members])) |>.seq (gives_text nodup (by simp [members]))
    |>.seq (gives_integer nodup (by simp [members]))
    |>.seq (gives_default nodup (by simp [members]) (Settings.reads_toJson formed.settings))

end GameState
end Ascent
