import Ascent.Proofs.Run

/-!
What is left out of a run, and what that leaves behind.

A command that is unknown or lacks an argument is refused before anything is done for it, so
striking such commands from a list changes nothing but the account of what was ignored. A command
that fails was tried: draws and identifiers that it used stay used, but the state goes on as it met
it. Either way the run can be told entry by entry, one for each command: it was applied, or it is
reported once.

Main exports: `Registry.admits`, `Dispatched.tried`, `tried_next`, `Entry`, `Entry.Told`, `account`,
`account_of_dispatch`, `seen_of_account`, `kept_iff_of_account`, `foldl_next_account`,
`refusals_leave_no_trace`.
-/

namespace Ascent

/-- Whether a command is tried at all: it is known, and it lacks no argument that it needs. -/
def Registry.admits (registry : Registry) (c : Command) : Bool :=
  (registry.find? c.name).any fun rule => rule.required.all (!c.params.lacks ·)

/-- Whether a command was tried before it was left out. -/
def IgnoredReason.tried : IgnoredReason → Bool
  | .failed _ => true
  | _ => false

/-- What came of commands, without the report of those that were not tried. -/
def Dispatched.tried (done : Dispatched) : Dispatched :=
  { done with ignored := done.ignored.filter (·.reason.tried) }

variable {registry : Registry} {c : Command}

/-! ### One command -/

/-- A command that is not tried is reported, whatever the state is, and uses up nothing. -/
theorem dispatch_of_not_admits (refused : registry.admits c = false) :
    ∃ reason : IgnoredReason, reason.tried = false ∧ ∀ s supply,
      dispatch registry s c supply = (.error ⟨c.name, reason⟩, supply) := by
  cases found : registry.find? c.name with
  | none =>
      refine ⟨.unknown, rfl, fun s supply => ?_⟩
      rw [dispatch, found]
  | some rule =>
      rw [Registry.admits, found, Option.any_some, List.all_eq_false] at refused
      obtain ⟨key, needed, lacks⟩ := refused
      have some_ : (rule.required.find? c.params.lacks).isSome :=
        List.find?_isSome.mpr ⟨key, needed, by simpa using lacks⟩
      obtain ⟨argument, missing⟩ := Option.isSome_iff_exists.mp some_
      refine ⟨.missing argument, rfl, fun s supply => ?_⟩
      rw [dispatch, found]
      dsimp only
      rw [missing]

/-- A command that is tried does what its rule does. -/
theorem dispatch_of_admits (admitted : registry.admits c) :
    ∃ rule, registry.find? c.name = some rule ∧ ∀ s supply,
      dispatch registry s c supply = match (rule.run s c.params).outcome supply with
        | (.ok effect, rest) => (.ok { effect with state := effect.state.legalize }, rest)
        | (.error fault, rest) => (.error ⟨c.name, .failed fault⟩, rest) := by
  obtain ⟨rule, found, complete⟩ := (Option.any_eq_true _ _).mp admitted
  have none : rule.required.find? c.params.lacks = none := by
    refine List.find?_eq_none.mpr fun key needed => ?_
    simpa using List.all_eq_true.mp complete key needed
  refine ⟨rule, found, fun s supply => ?_⟩
  rw [dispatch, found]
  dsimp only
  rw [none]
  -- What may be left are the same cases under two names.
  all_goals rcases (rule.run s c.params).outcome supply with ⟨_ | _, _⟩ <;> rfl

/-- A command that is tried goes on where the others are not reported; one that is not tried is not
seen there. -/
theorem tried_next (done : Dispatched) : (done.next registry c).tried =
    if registry.admits c then done.tried.next registry c else done.tried := by
  split
  · next admitted =>
      obtain ⟨rule, _, tries⟩ := dispatch_of_admits admitted
      unfold Dispatched.next Dispatched.tried
      dsimp only
      rw [tries]
      rcases (rule.run done.state c.params).outcome done.supply with ⟨_ | _, _⟩
      · simp [IgnoredReason.tried]
      · rfl
  · next refused =>
      obtain ⟨reason, untried, reports⟩ := dispatch_of_not_admits (Bool.not_eq_true _ ▸ refused)
      unfold Dispatched.next Dispatched.tried
      rw [reports]
      simp [untried]

/-- The commands that are not tried can be struck from a list. -/
theorem tried_foldl_next (commands : List Command) (done : Dispatched) :
    (commands.foldl (Dispatched.next registry) done).tried =
      (commands.filter registry.admits).foldl (Dispatched.next registry) done.tried := by
  induction commands generalizing done with
  | nil => rfl
  | cons c rest ih =>
      rw [List.foldl_cons, ih, tried_next, List.filter_cons]
      split <;> rfl

/-! ### A run, entry by entry -/

/-- One command of a run: what it met, and what came of it. -/
structure Entry where
  command : Command
  seen : GameState
  supply : Supply
  verdict : Except Ignored Effect

namespace Entry

/-- The state after the command. -/
def after (e : Entry) : GameState :=
  match e.verdict with
  | .ok effect => effect.state
  | .error _ => e.seen

/-- The documents that the command gave. -/
def updates (e : Entry) : List IndexUpdate :=
  match e.verdict with
  | .ok effect => effect.updates
  | .error _ => []

/-- The messages that the command gave. -/
def messages (e : Entry) : List String :=
  match e.verdict with
  | .ok effect => effect.messages
  | .error _ => []

/-- The report of the command, if it was left out. -/
def report? (e : Entry) : Option Ignored :=
  match e.verdict with
  | .ok _ => none
  | .error ignored => some ignored

/-- What may come of a command: it is refused, tried in vain, or applied. -/
inductive Told (registry : Registry) (e : Entry) : Prop where
  | refused {reason : IgnoredReason} (refused : registry.admits e.command = false)
      (untried : reason.tried = false) (verdict : e.verdict = .error ⟨e.command.name, reason⟩)
  | failed {rule : CommandRule} {fault : Fault} {rest : Supply}
      (admitted : registry.admits e.command) (found : registry.find? e.command.name = some rule)
      (run : (rule.run e.seen e.command.params).outcome e.supply = (.error fault, rest))
      (verdict : e.verdict = .error ⟨e.command.name, .failed fault⟩)
  | applied {rule : CommandRule} {effect : Effect} {rest : Supply}
      (admitted : registry.admits e.command) (found : registry.find? e.command.name = some rule)
      (run : (rule.run e.seen e.command.params).outcome e.supply = (.ok effect, rest))
      (verdict : e.verdict = .ok { effect with state := effect.state.legalize })

end Entry

/-- The entries of a run. -/
def account (registry : Registry) (s : GameState) (supply : Supply) : List Command → List Entry
  | [] => []
  | c :: rest =>
    let (verdict, left) := dispatch registry s c supply
    let entry : Entry := ⟨c, s, supply, verdict⟩
    entry :: account registry entry.after left rest

theorem Entry.after_ok (c : Command) (s : GameState) (supply : Supply) (effect : Effect) :
    (⟨c, s, supply, .ok effect⟩ : Entry).after = effect.state := rfl

/-- The first entry of a run, and those of the rest of it. -/
theorem account_of_dispatch {s : GameState} {supply rest : Supply}
    {verdict : Except Ignored Effect} (h : dispatch registry s c supply = (verdict, rest))
    (others : List Command) :
    account registry s supply (c :: others) =
      ⟨c, s, supply, verdict⟩ ::
        account registry (Entry.after ⟨c, s, supply, verdict⟩) rest others := by
  rw [account, h]

section

variable {P : GameState → Prop} {commands : List Command} {s : GameState} {supply : Supply}

/-- An entry tells what came of its command. -/
theorem verdict_of_mem_account : ∀ e ∈ account registry s supply commands,
    e.command ∈ commands ∧ e.verdict = (dispatch registry e.seen e.command e.supply).1 := by
  induction commands generalizing s supply with
  | nil => exact fun _ none => absurd none List.not_mem_nil
  | cons c others ih =>
      intro e member
      rcases List.mem_cons.mp member with rfl | later
      · exact ⟨List.mem_cons_self, rfl⟩
      · exact (ih e later).imp_left (List.mem_cons_of_mem c)

/-- What every entry of a run passes on is met by every entry. -/
theorem seen_of_account (start : P s)
    (step : ∀ e ∈ account registry s supply commands, P e.seen → P e.after) :
    ∀ e ∈ account registry s supply commands, P e.seen := by
  induction commands generalizing s supply with
  | nil => exact fun _ none => absurd none List.not_mem_nil
  | cons c others ih =>
      rw [account_of_dispatch rfl] at step ⊢
      obtain ⟨first, step⟩ := List.forall_mem_cons.mp step
      exact List.forall_mem_cons.mpr ⟨start, ih (first start) step⟩

/-- Where each entry passes something on exactly if there is no objection, the whole run does. -/
theorem kept_iff_of_account {Q : Entry → Prop} (start : P s)
    (step : ∀ e ∈ account registry s supply commands, P e.seen → (P e.after ↔ ¬ Q e)) :
    (∀ e ∈ account registry s supply commands, P e.after) ↔
      ∀ e ∈ account registry s supply commands, ¬ Q e := by
  constructor
  · intro kept e member
    have seen := seen_of_account start fun e member _ => kept e member
    exact (step e member (seen e member)).mp (kept e member)
  · intro none e member
    have seen := seen_of_account start fun e member met => (step e member met).mpr (none e member)
    exact (step e member (seen e member)).mpr (none e member)

end

/-- A command that is reported left the state as it met it, and gave nothing. -/
theorem Entry.Told.traceless {e : Entry} (told : e.Told registry) {ignored : Ignored}
    (reported : e.report? = some ignored) :
    ignored.name = e.command.name ∧ e.after = e.seen ∧ e.updates = [] ∧ e.messages = [] := by
  unfold report? at reported
  unfold after updates messages
  cases told with
  | refused _ _ verdict =>
      rw [verdict] at reported ⊢
      cases reported
      exact ⟨rfl, rfl, rfl, rfl⟩
  | failed _ _ _ verdict =>
      rw [verdict] at reported ⊢
      cases reported
      exact ⟨rfl, rfl, rfl, rfl⟩
  | applied _ _ _ verdict =>
      rw [verdict] at reported
      cases reported

theorem told_of_dispatch {s : GameState} {supply rest : Supply} {verdict : Except Ignored Effect}
    (h : dispatch registry s c supply = (verdict, rest)) :
    Entry.Told registry ⟨c, s, supply, verdict⟩ := by
  cases admitted : registry.admits c with
  | false =>
      obtain ⟨reason, untried, reports⟩ := dispatch_of_not_admits admitted
      rw [reports] at h
      exact .refused admitted untried (Prod.mk.inj h).1.symm
  | true =>
      obtain ⟨rule, found, tries⟩ := dispatch_of_admits admitted
      rw [tries] at h
      rcases run : (rule.run s c.params).outcome supply with ⟨_ | effect, left⟩
      · rw [run] at h
        exact .failed admitted found run (Prod.mk.inj h).1.symm
      · rw [run] at h
        exact .applied admitted found run (Prod.mk.inj h).1.symm

theorem told_of_mem_account {commands : List Command} {s : GameState} {supply : Supply} :
    ∀ e ∈ account registry s supply commands, e.Told registry := by
  induction commands generalizing s supply with
  | nil => exact fun _ none => absurd none List.not_mem_nil
  | cons c rest ih =>
      intro e member
      rcases List.mem_cons.mp member with rfl | later
      · exact told_of_dispatch rfl
      · exact ih e later

theorem commands_account (commands : List Command) (s : GameState) (supply : Supply) :
    (account registry s supply commands).map (·.command) = commands := by
  induction commands generalizing s supply with
  | nil => rfl
  | cons c rest ih => exact congrArg (c :: ·) (ih _ _)

/-- One more command of a run adds what its entry tells. -/
theorem next_entry (done : Dispatched) (c : Command) :
    let e : Entry := ⟨c, done.state, done.supply, (dispatch registry done.state c done.supply).1⟩
    done.next registry c = {
      state := e.after
      supply := (dispatch registry done.state c done.supply).2
      updates := done.updates ++ e.updates
      ignored := done.ignored ++ e.report?.toList
      messages := done.messages ++ e.messages } := by
  unfold Dispatched.next
  rcases dispatch registry done.state c done.supply with ⟨_ | _, _⟩
  · simp [Entry.after, Entry.updates, Entry.messages, Entry.report?]
  · simp [Entry.after, Entry.updates, Entry.messages, Entry.report?]

theorem account_cons (done : Dispatched) (c : Command) (rest : List Command) :
    account registry done.state done.supply (c :: rest) =
      ⟨c, done.state, done.supply, (dispatch registry done.state c done.supply).1⟩ ::
        account registry (done.next registry c).state (done.next registry c).supply rest := by
  rw [next_entry]
  rfl

/-- What came of a run is what its entries tell, after what came before. -/
theorem foldl_next_account (registry : Registry) (commands : List Command) (done : Dispatched) :
    let run := commands.foldl (Dispatched.next registry) done
    let log := account registry done.state done.supply commands
    run.state = log.foldl (fun _ e => e.after) done.state ∧
      run.updates = done.updates ++ log.flatMap Entry.updates ∧
      run.messages = done.messages ++ log.flatMap Entry.messages ∧
      run.ignored = done.ignored ++ log.filterMap Entry.report? := by
  induction commands generalizing done with
  | nil => simp [account]
  | cons c rest ih =>
      obtain ⟨state, updates, messages, ignored⟩ := ih (done.next registry c)
      dsimp only
      rw [List.foldl_cons, account_cons, state, updates, messages, ignored]
      rw [next_entry]
      generalize account registry _ _ rest = log
      generalize (⟨c, done.state, done.supply, _⟩ : Entry) = e
      refine ⟨rfl, by simp, by simp, ?_⟩
      cases reported : e.report? with
      | none => simp [reported]
      | some ignored => simp [reported]

/-- An entry met what the commands before it have led to. -/
theorem met_of_account {commands : List Command} (done : Dispatched) {before after : List Entry}
    {e : Entry} (split : account registry done.state done.supply commands = before ++ e :: after) :
    let met := (before.map (·.command)).foldl (Dispatched.next registry) done
    e.seen = met.state ∧ e.supply = met.supply := by
  induction commands generalizing done before with
  | nil => cases before <;> cases split
  | cons c rest ih =>
      rw [account_cons] at split
      cases before with
      | nil =>
          obtain ⟨rfl, _⟩ := List.cons.inj split
          exact ⟨rfl, rfl⟩
      | cons first before =>
          obtain ⟨rfl, later⟩ := List.cons.inj split
          exact ih (done.next registry c) later

/-- Striking the commands that are not tried from a list takes away their reports and changes
nothing else. Each command of the list has one entry, in order, which met what the commands before
it led to: it was refused, it failed, or it was applied; where it is reported it left the state as
it met it and gave nothing; and the run is what its entries tell. -/
theorem refusals_leave_no_trace (registry : Registry) (s : GameState) (supply : Supply)
    (commands : List Command) :
    let run := dispatchAll registry s supply commands
    let log := account registry s supply commands
    dispatchAll registry s supply (commands.filter registry.admits) = run.tried ∧
    log.map (·.command) = commands ∧
    (∀ before e after, log = before ++ e :: after →
      let met := dispatchAll registry s supply (before.map (·.command))
      e.Told registry ∧ e.seen = met.state ∧ e.supply = met.supply) ∧
    (∀ e ∈ log, ∀ ignored, e.report? = some ignored →
      ignored.name = e.command.name ∧ e.after = e.seen ∧ e.updates = [] ∧ e.messages = []) ∧
    run.state = log.foldl (fun _ e => e.after) s ∧ run.updates = log.flatMap Entry.updates ∧
    run.messages = log.flatMap Entry.messages ∧ run.ignored = log.filterMap Entry.report? := by
  intro run log
  obtain ⟨state, updates, messages, ignored⟩ :=
    foldl_next_account registry commands { state := s, supply := supply }
  refine ⟨?_, commands_account commands s supply, ?_, ?_, state, updates, messages, ignored⟩
  · exact (tried_foldl_next commands { state := s, supply := supply }).symm
  · intro before e after split
    have member : e ∈ log := split ▸ List.mem_append_right before List.mem_cons_self
    exact ⟨told_of_mem_account e member, met_of_account { state := s, supply := supply } split⟩
  · intro e member ignored reported
    exact (told_of_mem_account e member).traceless reported

/-- Somebody is met although a tag is unknown, a name is blank and a span has no value. Only the
span is still reported once the others are struck, and the identifier and the draws go to the same
person. -/
theorem refusals_leave_no_trace_met :
    let unknown : Command := ⟨"DANCE", [("name", some "Mo")]⟩
    let nameless : Command := ⟨"NPC_NEW", [("name", some " ")]⟩
    let spanless : Command := ⟨"TIME_PASS", [("duration", none)]⟩
    let met : Command := ⟨"npc_new", [("name", some "Mo")]⟩
    let commands := [unknown, nameless, spanless, met]
    let s : GameState := { player := { tier := "Qi Refining Layer 1" } }
    let run := dispatchAll .standard s {} commands
    dispatchAll .standard s {} [spanless, met] = run.tried ∧
      (account .standard s {} commands).map (·.command) = commands ∧
      run.tried.ignored = [⟨"TIME_PASS", .failed .valueless⟩] ∧ run.ignored.length = 3 ∧
      run.supply.taken = 5 ∧ (run.state.people .encountered).map (·.name) = ["Mo"] := by
  intro unknown nameless spanless met commands s run
  have traces := refusals_leave_no_trace .standard s {} commands
  have struck : commands.filter (Registry.admits .standard) = [spanless, met] := by decide +kernel
  rw [struck] at traces
  have told : (run.ignored, run.supply.taken, (run.state.people .encountered).map (·.name)) =
      ([⟨"DANCE", .unknown⟩, ⟨"NPC_NEW", .missing "name"⟩, ⟨"TIME_PASS", .failed .valueless⟩], 5,
        ["Mo"]) := by decide +kernel
  simp only [Prod.mk.injEq] at told
  obtain ⟨ignored, taken, names⟩ := told
  refine ⟨traces.1, traces.2.1, ?_, ?_, taken, names⟩
  · rw [Dispatched.tried, ignored]
    rfl
  · rw [ignored]
    rfl

end Ascent
