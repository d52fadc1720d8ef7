import Ascent.Knowledge
import Ascent.Proofs.Casing
import Ascent.Proofs.Distinct
import Mathlib.Data.List.Chain

/-!
Which records share a document of the knowledge index.

People have documents under identifiers of their own. Everything else has one under its name: what
is left of the name in lower case is its words, and what stood between them is forgotten, unless it
was an underscore. So two records share a document exactly if their names have the same words, and
names that are told apart by more than that keep their documents apart.

Main exports: `Text.words`, `documentWords`, `words_slug`, `slug_eq_joined`, `PlainName`, `Cabinet`,
`Cabinet.files_of_dispatch`, `documents_apart`, `two_factions_share_a_document`.
-/

namespace Ascent

/-! ### Words -/

namespace Text

/-- Whether a character parts words: it is neither a letter nor a number. -/
def partsWords (c : Char) : Bool := !isWord c || c == '_'

/-- The words of characters: the runs of letters and numbers. -/
def words (cs : List Char) : List (List Char) := (splitWhere partsWords cs).filter (· ≠ [])

section

variable {p : Char → Bool} {c : Char} {cs : List Char}

theorem splitWhere_of_part (part : p c) : splitWhere p (c :: cs) = [] :: splitWhere p cs := by
  rw [splitWhere, if_pos part]

theorem exists_splitWhere (p : Char → Bool) (cs : List Char) :
    ∃ piece pieces, splitWhere p cs = piece :: pieces := by
  induction cs with
  | nil => exact ⟨[], [], rfl⟩
  | cons c rest ih =>
      obtain ⟨piece, pieces, split⟩ := ih
      rw [splitWhere, split]
      split
      · exact ⟨_, _, rfl⟩
      · exact ⟨_, _, rfl⟩

theorem splitWhere_of_not_part (inner : p c = false) {piece : List Char}
    {pieces : List (List Char)} (split : splitWhere p cs = piece :: pieces) :
    splitWhere p (c :: cs) = (c :: piece) :: pieces := by
  rw [splitWhere, split, inner]
  rfl

theorem words_of_part (part : partsWords c) : words (c :: cs) = words cs := by
  rw [words, splitWhere_of_part part]
  rfl

theorem words_eq_nil (parts : ∀ c ∈ cs, partsWords c) : words cs = [] := by
  induction cs with
  | nil => rfl
  | cons c rest ih =>
      rw [words_of_part (parts c List.mem_cons_self)]
      exact ih fun d later => parts d (List.mem_cons_of_mem c later)

theorem words_ne_nil (inner : partsWords c = false) : words (c :: cs) ≠ [] := by
  obtain ⟨piece, pieces, split⟩ := exists_splitWhere partsWords cs
  rw [words, splitWhere_of_not_part inner split]
  simp

/-- The characters are split into pieces that begin with the same one and otherwise differ in empty
ones at most. -/
def SamePieces (cs ds : List Char) : Prop := ∃ piece pieces pieces',
  splitWhere partsWords cs = piece :: pieces ∧ splitWhere partsWords ds = piece :: pieces' ∧
    pieces.filter (· ≠ []) = pieces'.filter (· ≠ [])

namespace SamePieces

variable {ds : List Char}

theorem words (h : SamePieces cs ds) : words cs = words ds := by
  obtain ⟨piece, pieces, pieces', split, split', same⟩ := h
  rw [Text.words, Text.words, split, split', List.filter_cons, List.filter_cons, same]

theorem of_part (part : partsWords c) {d : Char} (part' : partsWords d)
    (same : Text.words cs = Text.words ds) : SamePieces (c :: cs) (d :: ds) :=
  ⟨[], _, _, splitWhere_of_part part, splitWhere_of_part part', same⟩

theorem of_not_part (inner : partsWords c = false) (h : SamePieces cs ds) :
    SamePieces (c :: cs) (c :: ds) := by
  obtain ⟨piece, pieces, pieces', split, split', same⟩ := h
  exact ⟨c :: piece, pieces, pieces', splitWhere_of_not_part inner split,
    splitWhere_of_not_part inner split', same⟩

end SamePieces

/-- What parts words can be left out at the end. -/
theorem samePieces_append (cs : List Char) {after : List Char} (parts : ∀ c ∈ after, partsWords c) :
    SamePieces (cs ++ after) cs := by
  induction cs with
  | nil =>
      cases after with
      | nil => exact ⟨[], [], [], rfl, rfl, rfl⟩
      | cons c rest =>
          have none := words_eq_nil fun d later => parts d (List.mem_cons_of_mem c later)
          exact ⟨[], _, [], splitWhere_of_part (parts c List.mem_cons_self), rfl, none⟩
  | cons c rest ih =>
      cases part : partsWords c with
      | true => exact .of_part part part ih.words
      | false => exact .of_not_part part ih

theorem words_dropWhile (narrow : ∀ c, p c → partsWords c) (cs : List Char) :
    words (cs.dropWhile p) = words cs := by
  induction cs with
  | nil => rfl
  | cons c rest ih =>
      rw [List.dropWhile_cons]
      split
      · next dropped => rw [ih, words_of_part (narrow c dropped)]
      · rfl

theorem words_trimWhere (narrow : ∀ c, p c → partsWords c) (cs : List Char) :
    words (trimWhere p cs) = words cs := by
  have back (ds : List Char) : words (ds.reverse.dropWhile p).reverse = words ds := by
    have whole : ds = (ds.reverse.dropWhile p).reverse ++ (ds.reverse.takeWhile p).reverse := by
      rw [← List.reverse_append, List.takeWhile_append_dropWhile, List.reverse_reverse]
    have parts : ∀ c ∈ (ds.reverse.takeWhile p).reverse, partsWords c := fun c member =>
      narrow c (List.mem_takeWhile_imp (List.mem_reverse.mp member))
    conv_rhs => rw [whole]
    exact (samePieces_append _ parts).words.symm
  rw [trimWhere, back, words_dropWhile narrow]

/-- Pieces that only one character parts can be put together again. -/
theorem intercalate_splitWhere (only : ∀ d ∈ cs, p d → d = c) :
    [c].intercalate (splitWhere p cs) = cs := by
  induction cs with
  | nil => rfl
  | cons d rest ih =>
      have whole := ih fun e later => only e (List.mem_cons_of_mem d later)
      obtain ⟨piece, pieces, split⟩ := exists_splitWhere p rest
      cases part : p d with
      | true =>
          rw [splitWhere_of_part part, split]
          rw [split] at whole
          rw [only d List.mem_cons_self part]
          conv_rhs => rw [← whole]
          simp [List.intercalate]
      | false =>
          rw [splitWhere_of_not_part part split]
          rw [split] at whole
          conv_rhs => rw [← whole]
          cases pieces <;> simp [List.intercalate]

end

end Text

open Text

/-! ### Names and their words -/

namespace Loose

theorem isWord_of_mem_slugChars {inside : Bool} {cs : List Char} :
    ∀ c ∈ slugChars inside cs, isWord c := by
  induction cs generalizing inside with
  | nil => exact fun _ none => absurd none List.not_mem_nil
  | cons c rest ih =>
      intro d member
      rw [slugChars] at member
      split at member
      · next word =>
          rcases List.mem_cons.mp member with rfl | later
          · exact word
          · exact ih d later
      · split at member
        · exact ih d member
        · rcases List.mem_cons.mp member with rfl | later
          · decide
          · exact ih d later

/-- Runs of other than word characters part words as underscores do. -/
theorem samePieces_slugChars (cs : List Char) :
    SamePieces (slugChars false cs) cs ∧ words (slugChars true cs) = words cs := by
  induction cs with
  | nil => exact ⟨⟨[], [], [], rfl, rfl, rfl⟩, rfl⟩
  | cons c rest ih =>
      obtain ⟨outside, inside⟩ := ih
      cases word : isWord c with
      | true =>
          have same : SamePieces (c :: slugChars false rest) (c :: rest) := by
            cases part : partsWords c with
            | true => exact .of_part part part outside.words
            | false => exact .of_not_part part outside
          simp only [slugChars, word, if_true]
          exact ⟨same, same.words⟩
      | false =>
          have part : partsWords c := by simp [partsWords, word]
          simp only [slugChars, word, Bool.false_eq_true, if_false, if_true]
          exact ⟨.of_part (by decide) part inside, inside.trans (words_of_part part).symm⟩

/-- Where no underscore was written, none stands beside another one. -/
theorem isChain_slugChars {cs : List Char} (unscored : '_' ∉ cs) :
    (slugChars false cs).IsChain (fun c d => c = '_' → d ≠ '_') ∧
      (slugChars true cs).IsChain (fun c d => c = '_' → d ≠ '_') ∧
      ∀ c ∈ (slugChars true cs).head?, c ≠ '_' := by
  induction cs with
  | nil => simp [slugChars]
  | cons c rest ih =>
      obtain ⟨outside, inside, first⟩ := ih (List.not_mem_of_not_mem_cons unscored)
      have other : c ≠ '_' := fun same => unscored (same ▸ List.mem_cons_self)
      cases word : isWord c with
      | true =>
          simp only [slugChars, word, if_true]
          have chain : (c :: slugChars false rest).IsChain (fun c d => c = '_' → d ≠ '_') :=
            List.isChain_cons.mpr ⟨fun _ _ same => absurd same other, outside⟩
          exact ⟨chain, chain, by simpa using other⟩
      | false =>
          simp only [slugChars, word, Bool.false_eq_true, if_false, if_true]
          exact ⟨List.isChain_cons.mpr ⟨fun d here _ => first d here, inside⟩, inside, first⟩

end Loose

namespace Text

/-- Pieces between underscores are not empty where no two underscores meet and none stands at the
end. -/
theorem forall_ne_nil_of_isChain {cs : List Char} (word : ∀ c ∈ cs, isWord c)
    (chain : cs.IsChain fun c d => c = '_' → d ≠ '_') (last : ∀ c ∈ cs.getLast?, c ≠ '_')
    {piece : List Char} {pieces : List (List Char)}
    (split : splitWhere partsWords cs = piece :: pieces) : ∀ w ∈ pieces, w ≠ [] := by
  induction cs generalizing piece pieces with
  | nil =>
      obtain ⟨_, rfl⟩ := List.cons.inj split
      simp
  | cons c rest ih =>
      obtain ⟨piece', pieces', split'⟩ := exists_splitWhere partsWords rest
      have later := ih (fun d member => word d (List.mem_cons_of_mem c member)) chain.of_cons
        (fun d member => last d (by cases rest <;> simp_all)) split'
      cases part : partsWords c with
      | false =>
          rw [splitWhere_of_not_part part split'] at split
          obtain ⟨_, rfl⟩ := List.cons.inj split
          exact later
      | true =>
          rw [splitWhere_of_part part, split'] at split
          obtain ⟨_, rfl⟩ := List.cons.inj split
          have underscore : c = '_' := by
            simpa [partsWords, word c List.mem_cons_self] using part
          refine List.forall_mem_cons.mpr ⟨?_, later⟩
          -- what follows the underscore begins with a character of its own
          cases rest with
          | nil => exact absurd underscore (last c rfl)
          | cons d others =>
              have other : d ≠ '_' := (List.isChain_cons_cons.mp chain).1 underscore
              have inner : partsWords d = false := by
                simp [partsWords, word d (by simp), other]
              obtain ⟨_, _, beyond⟩ := exists_splitWhere partsWords others
              rw [splitWhere_of_not_part inner beyond] at split'
              rw [← (List.cons.inj split').1]
              exact List.cons_ne_nil _ _

/-- Words between single underscores are put together from their words. -/
theorem intercalate_words {cs : List Char} (word : ∀ c ∈ cs, isWord c)
    (chain : cs.IsChain fun c d => c = '_' → d ≠ '_') (first : ∀ c ∈ cs.head?, c ≠ '_')
    (last : ∀ c ∈ cs.getLast?, c ≠ '_') (written : cs ≠ []) :
    ['_'].intercalate (words cs) = cs := by
  have only : ∀ c ∈ cs, partsWords c → c = '_' := fun c member part => by
    simpa [partsWords, word c member] using part
  have full : ∀ w ∈ splitWhere partsWords cs, w ≠ [] := by
    cases cs with
    | nil => exact absurd rfl written
    | cons c rest =>
        have inner : partsWords c = false := by
          simp [partsWords, word c List.mem_cons_self, first c rfl]
        obtain ⟨piece, pieces, split⟩ := exists_splitWhere partsWords rest
        have whole := splitWhere_of_not_part inner split
        rw [whole]
        exact List.forall_mem_cons.mpr
          ⟨List.cons_ne_nil _ _, forall_ne_nil_of_isChain word chain last whole⟩
  rw [words, List.filter_eq_self.mpr (by simpa using full), intercalate_splitWhere only]

end Text

/-- A name in lower case, without the blanks around it. -/
def lowerName (name : String) : List Char := lowerChars (trimChars name.toList)

/-- The words by which a name is filed: its own in lower case, or a common one where it has none. -/
def documentWords (name : String) : List (List Char) :=
  if words (lowerName name) = [] then ["entity".toList] else words (lowerName name)

/-- What is left of characters in an identifier, where anything is. -/
def slugCore (cs : List Char) : List Char := trimWhere (· = '_') (Loose.slugChars false cs)

theorem Loose.toList_slug (name : String) : (slug name).toList =
    if slugCore (lowerName name) = [] then "entity".toList else slugCore (lowerName name) := by
  unfold slug slugCore lowerName
  rw [lower, trim, String.toList_ofList, String.toList_ofList]
  simp only [List.isEmpty_iff]
  split
  · rfl
  · exact String.toList_ofList

section

variable {cs : List Char}

theorem slugCore_within (cs : List Char) : slugCore cs <:+: Loose.slugChars false cs := by
  have inner := (List.dropWhile_suffix (· = '_')
    (l := ((Loose.slugChars false cs).dropWhile (· = '_')).reverse)).isInfix
  have outer := (List.dropWhile_suffix (· = '_') (l := Loose.slugChars false cs)).isInfix
  rw [← List.reverse_infix, List.reverse_reverse] at inner
  exact inner.trans outer

theorem isWord_of_mem_slugCore : ∀ c ∈ slugCore cs, isWord c := fun c member =>
  Loose.isWord_of_mem_slugChars c ((slugCore_within cs).subset member)

theorem head?_slugCore : ∀ c ∈ (slugCore cs).head?, c ≠ '_' := fun c first => by
  simpa using head?_trimWhere c first

theorem getLast?_slugCore : ∀ c ∈ (slugCore cs).getLast?, c ≠ '_' := fun c last => by
  simpa using getLast?_trimWhere c last

theorem words_slugCore (cs : List Char) : words (slugCore cs) = words cs := by
  have narrow : ∀ c : Char, decide (c = '_') → partsWords c := fun c same => by
    simp [partsWords, of_decide_eq_true same]
  exact (words_trimWhere narrow _).trans (Loose.samePieces_slugChars cs).1.words

theorem words_slugCore_ne_nil (written : slugCore cs ≠ []) : words (slugCore cs) ≠ [] := by
  obtain ⟨c, rest, split⟩ := List.exists_cons_of_ne_nil written
  have member : c ∈ slugCore cs := split ▸ List.mem_cons_self
  have first : c ∈ (slugCore cs).head? := split ▸ rfl
  rw [split]
  exact words_ne_nil (by
    simp [partsWords, isWord_of_mem_slugCore c member, head?_slugCore c first])

end

/-- The words of an identifier are those by which the name is filed. -/
theorem words_slug (name : String) : words (Loose.slug name).toList = documentWords name := by
  rw [Loose.toList_slug, documentWords, ← words_slugCore (lowerName name)]
  split
  · next empty =>
      rw [empty, if_pos (by decide)]
      decide
  · next written => rw [if_neg (words_slugCore_ne_nil written)]

/-- Without underscores in the name, the identifier is its words joined by underscores. -/
theorem slug_eq_joined {name : String} (unscored : '_' ∉ lowerName name) :
    (Loose.slug name).toList = ['_'].intercalate (documentWords name) := by
  rw [← words_slug, Loose.toList_slug]
  split
  · decide
  · next written =>
      have whole := (Loose.isChain_slugChars unscored).1
      have chain := List.IsChain.infix whole (slugCore_within (lowerName name))
      exact (intercalate_words isWord_of_mem_slugCore chain head?_slugCore getLast?_slugCore
        written).symm

theorem documentWords_eq_of_slug_eq {name name' : String}
    (same : Loose.slug name = Loose.slug name') : documentWords name = documentWords name' := by
  rw [← words_slug, ← words_slug, same]

theorem slug_eq_iff {name name' : String} (unscored : '_' ∉ lowerName name)
    (unscored' : '_' ∉ lowerName name') :
    Loose.slug name = Loose.slug name' ↔ documentWords name = documentWords name' := by
  refine ⟨documentWords_eq_of_slug_eq, fun same => String.toList_inj.mp ?_⟩
  rw [slug_eq_joined unscored, slug_eq_joined unscored', same]

/-- A name that is nothing but words with a space between one and the next. -/
structure PlainName (name : String) : Prop where
  trimmed : trim name = name
  worded : words (lowerName name) ≠ []
  spaced : [' '].intercalate (words (lowerName name)) = lowerName name

/-- Plain names that differ in more than case have different identifiers. -/
theorem PlainName.slug_ne {name name' : String} (plain : PlainName name)
    (plain' : PlainName name') (differ : fold name ≠ fold name') :
    Loose.slug name ≠ Loose.slug name' := by
  intro same
  have words := documentWords_eq_of_slug_eq same
  rw [documentWords, documentWords, if_neg plain.worded, if_neg plain'.worded] at words
  have lowered : lower name = lower name' := by
    rw [← plain.trimmed, ← plain'.trimmed, lower, lower, trim, trim, String.toList_ofList,
      String.toList_ofList]
    exact congrArg String.ofList (plain.spaced.symm.trans (words ▸ plain'.spaced))
  exact differ (by rw [← fold_lower, lowered, fold_lower])

/-! ### Commands -/

/-- A kind of document that is filed by name: the tag of the command that writes such documents, the
kind, and the names of the records that they tell of. -/
structure Cabinet where
  tag : String
  kind : String
  names : GameState → List String

/-- The kinds of documents that are filed by name. -/
def cabinets : List Cabinet :=
  [⟨"ITEM_ADD", "item", fun s => s.inventory.map (·.name)⟩,
   ⟨"SKILL_LEARNED", "skill", fun s => s.skills.map (·.name)⟩,
   ⟨"FACTION_UPDATE", "faction", fun s => s.factions.map (·.name)⟩,
   ⟨"LOCATION_DISCOVERED", "location", fun s => s.lore.map (·.name)⟩,
   ⟨"LORE_DISCOVERED", "lore", fun s => s.lore.map (·.name)⟩,
   ⟨"ENTITY_DEFINITION", "entity_definition", fun s => s.lore.map (·.name)⟩]

/-- A name is that of a record that was there and that a narrator's name means, or that of a record
that is there now and has its name from the narrator. -/
def Kept (before after : List String) (called n : String) : Prop :=
  n ∈ before ∧ fold n = fold (sanitizeName (sanitizeName called)) ∨
    n = sanitizeName called ∧ n ∈ after

theorem kept_of_found {α : Type} [Named α] {records : List α} {after : List String}
    {called : String} {place : Nat} {r : α}
    (found : findNamed? records (sanitizeName called) = some (place, r)) :
    Kept (records.map (name ·)) after called (name r) :=
  .inl ⟨List.mem_map.mpr ⟨r, mem_of_findNamed? found, rfl⟩, (fold_name_of_findNamed? found).2⟩

/-- What a command gives is one document, about a record of some name that it creates or changes. -/
structure Cabinet.Files (cabinet : Cabinet) (s t : GameState) (called : String)
    (updates : List IndexUpdate) (n : String) : Prop where
  record : Kept (cabinet.names s) (cabinet.names t) called n
  update : ∃ content, updates = [indexByName cabinet.kind n content]

section

variable {s : GameState} {params : Params} {effect : Effect}

theorem upsertLore_kept (entries : List LoreEntry) (called : String)
    (fields : List (LoreField × FieldValue)) :
    Kept (entries.map (·.name)) ((upsertLore entries called fields).1.map (·.name)) called
      (upsertLore entries called fields).2.name := by
  unfold upsertLore
  split
  · next place known found =>
      rw [known.name_putAll fields]
      exact kept_of_found found
  · refine .inr ⟨LoreEntry.name_putAll _ fields, ?_⟩
    simp

theorem upsertFaction_kept (factions : List Faction) (called : String)
    (fields : List (FactionField × FieldValue)) :
    Kept (factions.map (·.name)) ((upsertFaction factions called fields).1.map (·.name)) called
      (upsertFaction factions called fields).2.name := by
  unfold upsertFaction
  split
  · next place known found =>
      rw [known.name_putAll fields]
      exact kept_of_found found
  · refine .inr ⟨Faction.name_putAll _ fields, ?_⟩
    simp

theorem Item.quantity_describedBy (i : Item) (fields : List (ItemField × FieldValue))
    (bonuses : Pairs String) (quantity : Int) :
    (i.describedBy fields bonuses quantity).quantity = quantity := rfl

theorem updateFaction_kept (s : GameState) (params : Params) :
    ∃ n, Kept (s.factions.map (·.name)) ((updateFaction s params).state.factions.map (·.name))
      (params.required "name") n ∧
      ∃ content, (updateFaction s params).updates = [indexByName "faction" n content] := by
  dsimp only [updateFaction]
  exact ⟨_, upsertFaction_kept s.factions (params.required "name") _, _, rfl⟩

theorem discoverPlace_kept (s : GameState) (params : Params) :
    ∃ n, Kept (s.lore.map (·.name)) ((discoverPlace s params).state.lore.map (·.name))
      (params.required "name") n ∧
      ∃ content, (discoverPlace s params).updates = [indexByName "location" n content] := by
  dsimp only [discoverPlace]
  exact ⟨_, upsertLore_kept s.lore (params.required "name") _, _, rfl⟩

theorem discoverLore_kept (s : GameState) (params : Params) :
    ∃ n, Kept (s.lore.map (·.name)) ((discoverLore s params).state.lore.map (·.name))
      (params.required "name") n ∧
      ∃ content, (discoverLore s params).updates = [indexByName "lore" n content] := by
  dsimp only [discoverLore]
  exact ⟨_, upsertLore_kept s.lore (params.required "name") _, _, rfl⟩

theorem defineEntity_kept (s : GameState) (params : Params) :
    ∃ n, Kept (s.lore.map (·.name)) ((defineEntity s params).state.lore.map (·.name))
      (params.required "name") n ∧
      ∃ content, (defineEntity s params).updates = [indexByName "entity_definition" n content] := by
  dsimp only [defineEntity]
  exact ⟨_, upsertLore_kept s.lore (params.required "name") _, _, rfl⟩

theorem learnSkill_kept (done : learnSkill s params = .ok effect) :
    ∃ n, Kept (s.skills.map (·.name)) (effect.state.skills.map (·.name)) (params.required "name")
      n ∧ ∃ content, effect.updates = [indexByName "skill" n content] := by
  unfold learnSkill at done
  dsimp only at done
  split at done
  · next place known found =>
      cases done
      refine ⟨_, ?_, _, rfl⟩
      rw [known.name_relearn]
      exact kept_of_found found
  · obtain ⟨description, _, done⟩ := exists_of_bind_eq_ok done
    cases done
    refine ⟨_, .inr ⟨Skill.name_learn _ _ _, ?_⟩, _, rfl⟩
    simp

/-- A stack that is new holds an item at least, so restoring leaves it where it is. -/
theorem addItem_kept (done : addItem s params = .ok effect) :
    ∃ n, Kept (s.inventory.map (·.name)) (effect.state.legalize.inventory.map (·.name))
      (params.required "name") n ∧
      ∃ content, effect.updates = [indexByName "item" n content] := by
  obtain ⟨bonuses, _, done⟩ := exists_of_bind_eq_ok done
  dsimp only at done
  split at done
  · next place known found =>
      obtain ⟨worth, _, done⟩ := exists_of_bind_eq_ok done
      obtain ⟨state, _, done⟩ := exists_of_bind_eq_ok done
      cases done
      refine ⟨_, ?_, _, rfl⟩
      simp only [Item.name_describedBy]
      exact kept_of_found found
  · split at done
    · cases done
    · next some_ =>
        obtain ⟨worth, _, done⟩ := exists_of_bind_eq_ok done
        cases done
        have counted : 0 < s.carried (params.required "name") + askedQuantity params := by omega
        refine ⟨_, .inr ⟨?_, ?_⟩, _, rfl⟩
        · simp only [Item.name_describedBy]
        · simp [GameState.legalize, Item.quantity_describedBy, counted]

end

/-- Every cabinet has a rule under its tag, which files one document on it. -/
theorem Cabinet.exists_rule {cabinet : Cabinet} (listed : cabinet ∈ cabinets) :
    ∃ r ∈ Registry.rules, r.tag = cabinet.tag ∧ ∀ s params, (r.run s params).Ensures fun e =>
      ∃ n, cabinet.Files s e.state.legalize (params.required "name") e.updates n := by
  have known {r : CommandRule} (member : r ∈ Registry.knowledge) : r ∈ Registry.rules := by
    simp only [Registry.rules, List.mem_append]
    tauto
  simp only [cabinets, List.mem_cons, List.not_mem_nil, or_false] at listed
  rcases listed with rfl | rfl | rfl | rfl | rfl | rfl
  · refine ⟨⟨"ITEM_ADD", ["name"], false, Registry.fallible addItem⟩, ?_, rfl, ?_⟩
    · simp [Registry.rules, Registry.belongings]
    · intro s params
      refine Registry.fallible_ensures fun e done => ?_
      obtain ⟨n, record, update⟩ := addItem_kept done
      exact ⟨n, record, update⟩
  · refine ⟨⟨"SKILL_LEARNED", ["name"], false, Registry.fallible learnSkill⟩, ?_, rfl, ?_⟩
    · simp [Registry.rules, Registry.belongings]
    · intro s params
      refine Registry.fallible_ensures fun e done => ?_
      obtain ⟨n, record, update⟩ := learnSkill_kept done
      exact ⟨n, record, update⟩
  · refine ⟨⟨"FACTION_UPDATE", ["name"], false, Registry.certain updateFaction⟩,
      known (by simp [Registry.knowledge]), rfl, fun s params => Registry.certain_ensures ?_⟩
    have files := updateFaction_kept s params
    generalize updateFaction s params = e at files ⊢
    obtain ⟨n, record, update⟩ := files
    exact ⟨n, record, update⟩
  · refine ⟨⟨"LOCATION_DISCOVERED", ["name"], false, Registry.certain discoverPlace⟩,
      known (by simp [Registry.knowledge]), rfl, fun s params => Registry.certain_ensures ?_⟩
    have files := discoverPlace_kept s params
    generalize discoverPlace s params = e at files ⊢
    obtain ⟨n, record, update⟩ := files
    exact ⟨n, record, update⟩
  · refine ⟨⟨"LORE_DISCOVERED", ["name"], false, Registry.certain discoverLore⟩,
      known (by simp [Registry.knowledge]), rfl, fun s params => Registry.certain_ensures ?_⟩
    have files := discoverLore_kept s params
    generalize discoverLore s params = e at files ⊢
    obtain ⟨n, record, update⟩ := files
    exact ⟨n, record, update⟩
  · refine ⟨⟨"ENTITY_DEFINITION", ["name"], false, Registry.certain defineEntity⟩,
      known (by simp [Registry.knowledge]), rfl, fun s params => Registry.certain_ensures ?_⟩
    have files := defineEntity_kept s params
    generalize defineEntity s params = e at files ⊢
    obtain ⟨n, record, update⟩ := files
    exact ⟨n, record, update⟩

/-- A command that is carried out under the tag of a cabinet files one document on it. -/
theorem Cabinet.files_of_dispatch {cabinet : Cabinet} (listed : cabinet ∈ cabinets) {c : Command}
    (tag : upper c.name = upper cabinet.tag) {s : GameState} {supply rest : Supply} {e : Effect}
    (run : dispatch .standard s c supply = (.ok e, rest)) :
    ∃ n, cabinet.Files s e.state (c.params.required "name") e.updates n := by
  obtain ⟨r, member, tagged, files⟩ := exists_rule listed
  obtain ⟨rule, raw, found, done, rfl⟩ := dispatch_eq_ok run
  rw [← tagged] at tag
  obtain rfl := Option.some.inj ((Registry.find?_of_mem member tag).symm.trans found)
  exact files s c.params supply raw rest done

theorem key_indexByName_eq_iff {kind n n' content content' : String} :
    (indexByName kind n content).key = (indexByName kind n' content').key ↔
      Loose.slug n = Loose.slug n' := by
  simp [IndexUpdate.key, indexByName, ToString.toString]

/-- Each of two commands of one kind files one document, about a record that it creates or changes.
The two documents have one key only if the names of the two records have the same words; without
underscores in the names, exactly then. So plain names that differ in more than case have documents
of their own. -/
theorem documents_apart {cabinet : Cabinet} (listed : cabinet ∈ cabinets) {c c' : Command}
    (tag : upper c.name = upper cabinet.tag) (tag' : upper c'.name = upper cabinet.tag)
    {s s' : GameState} {supply supply' rest rest' : Supply} {e e' : Effect}
    (run : dispatch .standard s c supply = (.ok e, rest))
    (run' : dispatch .standard s' c' supply' = (.ok e', rest')) :
    ∃ n n' u u', e.updates = [u] ∧ e'.updates = [u'] ∧
      Kept (cabinet.names s) (cabinet.names e.state) (c.params.required "name") n ∧
      Kept (cabinet.names s') (cabinet.names e'.state) (c'.params.required "name") n' ∧
      (u.key = u'.key → documentWords n = documentWords n') ∧
      ('_' ∉ lowerName n → '_' ∉ lowerName n' →
        (u.key = u'.key ↔ documentWords n = documentWords n')) ∧
      (PlainName n → PlainName n' → fold n ≠ fold n' → u.key ≠ u'.key) := by
  obtain ⟨n, kept, content, update⟩ := Cabinet.files_of_dispatch listed tag run
  obtain ⟨n', kept', content', update'⟩ := Cabinet.files_of_dispatch listed tag' run'
  refine ⟨n, n', _, _, update, update', kept, kept', ?_, ?_, ?_⟩
  · rw [key_indexByName_eq_iff]
    exact documentWords_eq_of_slug_eq
  · rw [key_indexByName_eq_iff]
    exact slug_eq_iff
  · intro plain plain' differ same
    exact plain.slug_ne plain' differ (key_indexByName_eq_iff.mp same)

/-- Two sects become known, one after the other, and each has a document of its own. -/
theorem documents_apart_two_sects :
    let azure : Command := ⟨"FACTION_UPDATE", [("name", some "Azure Sect")]⟩
    let jade : Command := ⟨"Faction_Update", [("name", some "Jade Sect")]⟩
    let one : Effect :=
      { state := { factions := [{ name := "Azure Sect" }] }
        updates := [⟨"azure_sect", "faction", "Faction: Azure Sect"⟩] }
    let two : Effect :=
      { state := { factions := [{ name := "Azure Sect" }, { name := "Jade Sect" }] }
        updates := [⟨"jade_sect", "faction", "Faction: Jade Sect"⟩] }
    dispatch .standard {} azure {} = (.ok one, {}) ∧
      dispatch .standard one.state jade {} = (.ok two, {}) ∧
      PlainName "Azure Sect" ∧ PlainName "Jade Sect" ∧
      ∃ u u', one.updates = [u] ∧ two.updates = [u'] ∧ u.key ≠ u'.key := by
  intro azure jade one two
  have first : dispatch .standard {} azure {} = (.ok one, {}) := by decide +kernel
  have second : dispatch .standard one.state jade {} = (.ok two, {}) := by decide +kernel
  have plain : PlainName "Azure Sect" := ⟨by decide +kernel, by decide +kernel, by decide +kernel⟩
  have plain' : PlainName "Jade Sect" := ⟨by decide +kernel, by decide +kernel, by decide +kernel⟩
  have listed : cabinets[2] ∈ cabinets := List.getElem_mem _
  obtain ⟨n, n', u, u', update, update', kept, kept', _, _, apart⟩ :=
    documents_apart listed (by decide +kernel) (by decide +kernel) first second
  have azureName : n = "Azure Sect" := by
    rcases kept with ⟨none, _⟩ | ⟨named, _⟩
    · exact absurd none List.not_mem_nil
    · exact named.trans (by decide +kernel)
  have jadeName : n' = "Jade Sect" := by
    rcases kept' with ⟨known, folded⟩ | ⟨named, _⟩
    · rw [List.mem_singleton.mp known] at folded
      exact absurd folded (by decide +kernel)
    · exact named.trans (by decide +kernel)
  subst azureName jadeName
  exact ⟨first, second, plain, plain', u, u', update, update',
    apart plain plain' (by decide +kernel)⟩

/-- Two sects, told apart by a hyphen where one of them has a space, share a document: the index
keeps the later one only. -/
theorem two_factions_share_a_document :
    let spaced : Command := ⟨"FACTION_UPDATE", [("name", some "Azure Sect")]⟩
    let hyphened : Command := ⟨"FACTION_UPDATE", [("name", some "Azure-Sect")]⟩
    let run := dispatchAll .standard {} {} [spaced, hyphened]
    run.ignored = [] ∧ run.state.factions.map (·.name) = ["Azure Sect", "Azure-Sect"] ∧
      fold "Azure Sect" ≠ fold "Azure-Sect" ∧
      run.updates.map (·.key) = ["faction:azure_sect", "faction:azure_sect"] ∧
      (KnowledgeIndex.latest run.updates).map (fun (_, u) => u.content) =
        ["Faction: Azure-Sect"] := by
  decide +kernel

end Ascent
