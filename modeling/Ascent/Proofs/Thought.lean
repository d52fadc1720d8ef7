import Ascent.Proofs.Marks

/-!
Thoughts in a response, and what the rest of the response makes of them.

What is thought is put out before tags or a story are looked for in the whole text. But blocks are
looked for in the response as it came, so a block that opens in a thought, or is left open before
it, is read although it is thought. Every part of a response whose blocks keep clear of the thought
is the same whatever is thought.

Main exports: `contains_lowerChars_iff`, `withThought`, `read_withThought`,
`tags_of_thought_are_read`.
-/

namespace Ascent

open Text

namespace Text

/-! ### Marks in lower case -/

/-- The lower-case form of a character where it is one character and hangs on nothing around it;
any other character itself. -/
def loneLower (c : Char) : Char :=
  if c.toNat = 0x3A3 ∨ c.toNat = 0x130 then c else (lowerChar c).headD c

theorem lowerBetween_eq {c : Char} (notSigma : c.toNat ≠ 0x3A3) (notDotted : c.toNat ≠ 0x130)
    (before after : List Char) : lowerBetween before c after = [loneLower c] := by
  simp only [lowerBetween, loneLower, notSigma, notDotted, or_self, if_false]
  simp only [lowerChar, notDotted, if_false]
  split <;> rfl

theorem lowerBetween_shape (before : List Char) (c : Char) (after : List Char) :
    (∃ x, lowerBetween before c after = [x]) ∨
      lowerBetween before c after = ['i', Char.ofNat 0x307] := by
  by_cases sigma : c.toNat = 0x3A3
  · rw [lowerBetween, if_pos sigma]
    exact .inl ⟨_, rfl⟩
  · by_cases dotted : c.toNat = 0x130
    · rw [lowerBetween, if_neg sigma, lowerChar, dotted]
      exact .inr rfl
    · exact .inl ⟨_, lowerBetween_eq sigma dotted before after⟩

/-- A character whose lower case is a plain one is a form of that. -/
theorem plainForm_of_loneLower {c l : Char} (plain : isPlain l) (lowered : loneLower c = l) :
    plainForm c = l := by
  rw [loneLower] at lowered
  split at lowered
  · next special =>
      simp only [isPlain, Bool.and_eq_true, decide_eq_true_eq] at plain
      rw [← lowered] at plain
      omega
  · next common =>
      have form : isFormOf l c := by
        simp only [not_or] at common
        have single := lowerBetween_eq common.1 common.2 [] []
        rw [lowerBetween, if_neg common.1, loneLower, if_neg (not_or.mpr common), lowered] at single
        simp [isFormOf, single]
      rw [isFormOf_eq plain] at form
      exact eq_of_beq form

theorem loneLower_of_special {c : Char} (special : c.toNat = 0x3A3 ∨ c.toNat = 0x130) :
    loneLower c = c :=
  if_pos special

theorem ne_of_isPlain {l c : Char} (plain : isPlain l)
    (special : c.toNat = 0x3A3 ∨ c.toNat = 0x130) : l ≠ c := by
  rintro rfl
  rcases special with sigma | dotted
  · simp [isPlain, sigma] at plain
  · simp [isPlain, dotted] at plain

/-- No word that is written in plain characters and ends in `>` begins in the lower case of a sigma
or of the dotted capital. -/
theorem not_isPrefix_of_special {l c : Char} {word : List Char}
    (plain : ∀ d ∈ l :: word, isPlain d) (ends : ∀ d ∈ (l :: word).getLast?, d = '>')
    (special : c.toNat = 0x3A3 ∨ c.toNat = 0x130) (before after rest : List Char) :
    ¬ l :: word <+: lowerBetween before c after ++ rest := by
  have shown := plain l List.mem_cons_self
  rcases special with sigma | dotted
  · rw [lowerBetween, if_pos sigma, List.singleton_append, List.cons_prefix_cons]
    rintro ⟨rfl, -⟩
    split at shown <;> cases shown
  · have notSigma : c.toNat ≠ 0x3A3 := by rw [dotted]; decide
    rw [lowerBetween, if_neg notSigma, lowerChar, dotted]
    -- the lower case of the dotted capital is a letter and a point of its own
    rintro ⟨tail, same⟩
    cases word with
    | nil =>
        have dot := ends l rfl
        subst dot
        cases (List.cons.inj same).1
    | cons e word =>
        have point : isPlain e := plain e (by simp)
        have second := (List.cons.inj (List.cons.inj same).2).1
        rw [second] at point
        cases point

/-- A word that is written in plain characters and ends in `>` is read off lower-case text where it
is read off its characters one by one. -/
theorem isPrefix_lowerAfter {word : List Char} (plain : ∀ l ∈ word, isPlain l)
    (ends : ∀ l ∈ word.getLast?, l = '>') (before cs : List Char) :
    word <+: lowerAfter before cs ↔ word <+: cs.map loneLower := by
  induction word generalizing before cs with
  | nil => simp
  | cons l word ih =>
      have later := ih (fun d member => plain d (List.mem_cons_of_mem l member)) fun d last => by
        cases word with
        | nil => cases last
        | cons e word => exact ends d (by simpa using last)
      cases cs with
      | nil => simp [lowerAfter]
      | cons c cs =>
          rw [lowerAfter, List.map_cons, List.cons_prefix_cons]
          by_cases special : c.toNat = 0x3A3 ∨ c.toNat = 0x130
          · have other := ne_of_isPlain (plain l List.mem_cons_self) special
            simp only [loneLower_of_special special, other, false_and, iff_false]
            exact not_isPrefix_of_special plain ends special _ _ _
          · obtain ⟨sigma, dotted⟩ := not_or.mp special
            rw [lowerBetween_eq sigma dotted, List.singleton_append, List.cons_prefix_cons, later]

theorem contains_iff_isInfix {part cs : List Char} : contains part cs ↔ part <:+: cs := by
  induction cs with
  | nil => simp [contains]
  | cons c cs ih => simp [contains, ih, List.infix_cons_iff]

/-- A mark stands in the lower case of a text where it is written in letters each of which it is the
lower case of. -/
theorem contains_lowerChars_iff {word : List Char} (mark : Mark word)
    (ends : ∀ l ∈ word.getLast?, l = '>') (cs : List Char) :
    contains word (lowerChars cs) ↔ word <:+: cs.map loneLower := by
  have after (before : List Char) :
      word <:+: lowerAfter before cs ↔ word <:+: cs.map loneLower := by
    induction cs generalizing before with
    | nil => rfl
    | cons c cs ih =>
        have first := isPrefix_lowerAfter mark.plain ends before (c :: cs)
        rw [lowerAfter] at first ⊢
        rw [List.map_cons, List.infix_cons_iff, ← ih (c :: before), ← List.map_cons, ← first]
        rcases lowerBetween_shape before c cs with ⟨x, single⟩ | double
        · rw [single, List.singleton_append, List.infix_cons_iff]
        · have noMark : ¬ word <+: Char.ofNat 0x307 :: lowerAfter (c :: before) cs := by
            rintro ⟨rest, same⟩
            have opens := mark.opens
            cases word with
            | nil => cases opens
            | cons l word =>
                rw [(List.cons.inj same).1] at opens
                cases opens
          rw [double, List.cons_append, List.singleton_append, List.infix_cons_iff,
            List.infix_cons_iff]
          simp only [noMark, false_or]
  rw [contains_iff_isInfix]
  exact after []

section

variable {word : List Char}

/-- A mark that stands in a text before another mark stands in one of the two. -/
theorem Mark.isInfix_append_iff (mark : Mark word) (cs : List Char) {rest : List Char}
    (atMark : rest.head? = some '<') : word <:+: cs ++ rest ↔ word <:+: cs ∨ word <:+: rest := by
  induction cs with
  | nil => simp [mark.ne_nil]
  | cons c cs ih =>
      have first : word <+: c :: (cs ++ rest) ↔ word <+: c :: cs := by
        refine ⟨?_, fun found => found.trans (List.prefix_append (c :: cs) rest)⟩
        rintro ⟨after, split⟩
        rw [← List.cons_append] at split
        rcases List.append_eq_append_iff.mp split with ⟨more, whole, -⟩ | ⟨more, whole, rfl⟩
        · exact ⟨more, whole.symm⟩
        · cases more with
          | nil => exact ⟨[], by simpa using whole⟩
          | cons d more =>
              -- the mark would go on over the place where the other one begins
              have second : d = '<' := Option.some.inj atMark
              have once := mark.once
              rw [whole, second] at once
              exact absurd (by simp) once
      rw [List.cons_append, List.infix_cons_iff, first, ih, List.infix_cons_iff, or_assoc]

theorem isInfix_append_of_foreign {part : List Char} (foreign : Foreign word part)
    (rest : List Char) :
    word <:+: part ++ rest ↔ word <:+: rest := by
  have onwards (cs : List Char) (suffix : cs <:+ part) :
      word <:+: cs ++ rest ↔ word <:+: rest := by
    induction cs with
    | nil => rfl
    | cons c cs ih =>
        have apart := foreign (c :: cs) ((List.mem_tails _ _).mpr suffix) (List.cons_ne_nil c cs)
        have first : ¬ word <+: c :: (cs ++ rest) := by
          rintro ⟨after, split⟩
          rw [← List.cons_append] at split
          rcases List.append_eq_append_iff.mp split with ⟨more, whole, -⟩ | ⟨more, whole, -⟩
          · exact apart.1 ⟨more, whole.symm⟩
          · exact apart.2 ⟨more, whole.symm⟩
        rw [List.cons_append, List.infix_cons_iff, ih ((List.suffix_cons c cs).trans suffix)]
        simp only [first, false_or]
  exact onwards part (List.suffix_refl part)

/-- A mark that stands in the lower case of a text stands in the text. -/
theorem Mark.isSome_cutWord?_of_isInfix (mark : Mark word) {cs : List Char}
    (stands : word <:+: cs.map loneLower) : (cutWord? word cs).isSome := by
  obtain ⟨before, after, split⟩ := stands
  obtain ⟨u, v, rfl, left, rfl⟩ := List.map_eq_append_iff.mp split.symm
  obtain ⟨u, m, rfl, rfl, written⟩ := List.map_eq_append_iff.mp left
  have forms : m.map plainForm = word := by
    rw [← written]
    refine List.map_congr_left fun c member => ?_
    refine plainForm_of_loneLower (mark.plain _ ?_) rfl
    rw [← written]
    exact List.mem_map_of_mem member
  have suffix : m ++ v <:+ u ++ m ++ v := ⟨u, by simp⟩
  refine isSome_cutWord?_of_suffix suffix ?_
  rw [mark.cutWord?_written forms]
  rfl

end

end Text

/-! ### A response with a thought in it -/

/-- A text with a thought in it. -/
def withThought (before thought after : String) : String :=
  before ++ "<thinking>" ++ thought ++ "</thinking>" ++ after

theorem toList_withThought (before thought after : String) :
    (withThought before thought after).toList = before.toList ++ (Block.thinking.opening ++
      (thought.toList ++ (Block.thinking.closing ++ after.toList))) := by
  have opening : "<thinking>".toList = Block.thinking.opening := by decide
  have closing : "</thinking>".toList = Block.thinking.closing := by decide
  simp [withThought, opening, closing]

namespace Block

theorem map_plainForm_opening (b : Block) : b.opening.map plainForm = b.opening := by
  cases b <;> decide

theorem map_plainForm_closing (b : Block) : b.closing.map plainForm = b.closing := by
  cases b <;> decide

end Block

namespace Response

section

variable {before thought after : String}

/-- The marks around a thought cut the text where they stand. -/
theorem cut_withThought (fresh : Block.thinking.opensIn before.toList = false)
    (unclosed : Block.thinking.closesIn thought.toList = false) :
    ∃ rest, cutWord? Block.thinking.opening (withThought before thought after).toList =
        some (before.toList, rest) ∧
      cutWord? Block.thinking.closing rest = some (thought.toList, after.toList) := by
  have opening := Block.map_plainForm_opening .thinking
  have closing := Block.map_plainForm_closing .thinking
  have opens := Block.mark_opening .thinking
  have closes := Block.mark_closing .thinking
  refine ⟨thought.toList ++ (Block.thinking.closing ++ after.toList), ?_, ?_⟩
  · rw [toList_withThought, opens.cutWord?_append _ (opens.atMark opening _),
      Block.cut_of_not_opensIn fresh, opens.cutWord?_written opening]
    simp
  · rw [closes.cutWord?_append _ (closes.atMark closing _),
      Block.cut_of_not_closesIn unclosed, closes.cutWord?_written closing]
    simp

theorem eraseBlocks_cons (b : Block) (bs : List Block) (cs : List Char) :
    eraseBlocks (b :: bs) cs = eraseBlocks bs (b.pattern.erase cs) := rfl

/-- What is left without what is thought does not depend on the thought. -/
theorem erase_withThought (fresh : Block.thinking.opensIn before.toList = false)
    (unclosed : Block.thinking.closesIn thought.toList = false) :
    Block.thinking.pattern.erase (withThought before thought after).toList =
      before.toList ++ Block.thinking.pattern.erase after.toList := by
  obtain ⟨_, opened, closed⟩ := @cut_withThought before thought after fresh unclosed
  exact Block.erase_of_cut opened closed

theorem thinking_withThought (fresh : Block.thinking.opensIn before.toList = false)
    (unclosed : Block.thinking.closesIn thought.toList = false) :
    (read (withThought before thought after)).thinking = trim thought := by
  obtain ⟨_, opened, closed⟩ := @cut_withThought before thought after fresh unclosed
  simp [read, Block.content?, Block.first?_eq, opened, closed, trim]

/-- A block that keeps clear of the thought stands before it or after it. -/
theorem content?_withThought {b : Block} (other : b ≠ .thinking)
    (clear : b.KeepsClear before.toList thought.toList) :
    b.content? (withThought before thought after).toList =
      if b.opensIn before.toList then b.content? before.toList else b.content? after.toList := by
  rw [Block.content?, toList_withThought, Block.first?_around other
    (Block.map_plainForm_opening .thinking) (Block.map_plainForm_closing .thinking) clear]
  split <;> rfl

/-- Where no story opens in the thought, the mark of one is in the lower case of the whole if it is
in that of what stands around the thought. -/
theorem contains_withThought
    (unopened : Block.narration.opensIn thought.toList = false) :
    contains Block.narration.opening (lowerChars (withThought before thought after).toList) ↔
      Block.narration.opening <:+: before.toList.map loneLower ∨
        Block.narration.opening <:+: after.toList.map loneLower := by
  have mark := Block.mark_opening .narration
  have foreign := Block.opening_foreign (b := .narration) (d := .thinking) (by decide)
  have opening : Block.thinking.opening.map loneLower = Block.thinking.opening := by
    decide +kernel
  have closing : Block.thinking.closing.map loneLower = Block.thinking.closing := by
    decide +kernel
  have absent : ¬ Block.narration.opening <:+: thought.toList.map loneLower := fun stands => by
    have found := mark.isSome_cutWord?_of_isInfix stands
    rw [Block.cut_of_not_opensIn unopened] at found
    cases found
  have last : Block.narration.opening.getLast? = some '>' := by decide +kernel
  have ends : ∀ l ∈ Block.narration.opening.getLast?, l = '>' := fun l member => by
    rw [last] at member
    exact (Option.some.inj member).symm
  rw [contains_lowerChars_iff mark ends, toList_withThought]
  simp only [List.map_append, opening, closing]
  rw [mark.isInfix_append_iff _ rfl, isInfix_append_of_foreign foreign.1,
    mark.isInfix_append_iff _ rfl, isInfix_append_of_foreign foreign.2]
  simp only [absent, false_or]

/-- A part of a response whose blocks keep clear of what is thought is the same whatever is
thought. -/
theorem read_withThought {before t₁ t₂ after : String}
    (fresh : Block.thinking.opensIn before.toList = false)
    (unclosed₁ : Block.thinking.closesIn t₁.toList = false)
    (unclosed₂ : Block.thinking.closesIn t₂.toList = false) :
    let r₁ := read (withThought before t₁ after)
    let r₂ := read (withThought before t₂ after)
    let clear (b : Block) := b.KeepsClear before.toList t₁.toList ∧
      b.KeepsClear before.toList t₂.toList
    r₁.thinking = trim t₁ ∧
      (clear .elsewhere → r₁.elsewhere = r₂.elsewhere) ∧
      (clear .narration → r₁.narration = r₂.narration) ∧
      (clear .tags → clear .definitions → r₁.tags = r₂.tags) := by
  intro r₁ r₂ clear
  have content {b : Block} (other : b ≠ .thinking) (apart : clear b) :
      b.content? (withThought before t₁ after).toList =
        b.content? (withThought before t₂ after).toList := by
    rw [content?_withThought other apart.1, content?_withThought other apart.2]
  have erased (bs : List Block) :
      eraseBlocks (.thinking :: bs) (withThought before t₁ after).toList =
        eraseBlocks (.thinking :: bs) (withThought before t₂ after).toList := by
    rw [eraseBlocks_cons, eraseBlocks_cons, erase_withThought fresh unclosed₁,
      erase_withThought fresh unclosed₂]
  refine ⟨thinking_withThought fresh unclosed₁, fun apart => ?_, fun apart => ?_,
    fun tags definitions => ?_⟩
  · change elsewhere? _ = elsewhere? _
    rw [elsewhere?, elsewhere?, content (by decide) apart]
  · have mark : contains Block.narration.opening
          (lowerChars (withThought before t₁ after).toList) =
        contains Block.narration.opening (lowerChars (withThought before t₂ after).toList) := by
      rw [Bool.eq_iff_iff, contains_withThought apart.1.2, contains_withThought apart.2.2]
    change String.ofList (narrationOf _) = String.ofList (narrationOf _)
    rw [narrationOf, narrationOf, content (by decide) apart, mark, unmarkedNarration,
      unmarkedNarration, erased]
  · change tagsOf _ = tagsOf _
    rw [tagsOf, tagsOf, tagText, tagText, erased, content (by decide) tags,
      content (by decide) definitions]

/-- A tag in a thought and the end of a block that was not opened do nothing. -/
theorem read_withThought_idle :
    let before := "<narration>Rain.</narration> "
    let after := " <data_tags>[TIME_PASS: duration=short]</data_tags>"
    let t₁ := "[STAT_CHANGE: name=hp amount=999] </data_tags>"
    let r₁ := read (withThought before t₁ after)
    let r₂ := read (withThought before "" after)
    let clear (b : Block) := b.KeepsClear before.toList t₁.toList ∧
      b.KeepsClear before.toList "".toList
    Block.thinking.opensIn before.toList = false ∧ Block.thinking.closesIn t₁.toList = false ∧
      Block.thinking.closesIn "".toList = false ∧
      clear .elsewhere ∧ clear .narration ∧ clear .tags ∧ clear .definitions ∧
      r₁.thinking = t₁ ∧ r₁.elsewhere = r₂.elsewhere ∧ r₁.narration = r₂.narration ∧
      r₁.tags = r₂.tags ∧ r₁.tags.map Tag.name = ["TIME_PASS"] := by
  intro before after t₁ r₁ r₂ clear
  have fresh : Block.thinking.opensIn before.toList = false := by decide +kernel
  have unclosed₁ : Block.thinking.closesIn t₁.toList = false := by decide +kernel
  have unclosed₂ : Block.thinking.closesIn "".toList = false := by decide +kernel
  have clears : clear .elsewhere ∧ clear .narration ∧ clear .tags ∧ clear .definitions := by
    decide +kernel
  have same := @read_withThought before t₁ "" after fresh unclosed₁ unclosed₂
  have thought : trim t₁ = t₁ := by decide +kernel
  have heard : r₁.tags.map Tag.name = ["TIME_PASS"] := by decide +kernel
  exact ⟨fresh, unclosed₁, unclosed₂, clears.1, clears.2.1, clears.2.2.1, clears.2.2.2,
    same.1.trans thought, same.2.1 clears.1, same.2.2.1 clears.2.1,
    same.2.2.2 clears.2.2.1 clears.2.2.2, heard⟩

/-- A block of tags is read although it is thought. -/
theorem tags_of_thought_are_read :
    let thought := "<data_tags>[STAT_CHANGE: name=hp amount=999]</data_tags>"
    Block.thinking.opensIn "".toList = false ∧ Block.thinking.closesIn thought.toList = false ∧
      Block.thinking.closesIn "".toList = false ∧
      (read (withThought "" thought "The wind howls.")).tags ≠
        (read (withThought "" "" "The wind howls.")).tags := by
  decide +kernel

end

end Response
end Ascent
