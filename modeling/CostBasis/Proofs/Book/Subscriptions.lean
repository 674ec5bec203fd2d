import Mathlib.Data.List.Infix
import CostBasis.Proofs.Book.Channels

/-!
# Subscriptions

Who is shown a position in the course of a run.  Ids are given out in order and never again, so a
subscription is alive until a command takes it back or makes another subscriber the only one.  Every
accepted fill that is told of is shown once to each subscription that is alive at that moment, the
oldest first, and no one is shown anything else.
-/

namespace CostBasis

/-! ## Lives of subscriptions -/

namespace Command

/-- The label of the subscriber that a command registers. -/
def registers? : Command → Option String
  | .subscribe label | .subscribeOnly label => some label
  | _ => none

/-- Whether a command ends the subscription of an id that was given out before it. -/
def ends (id : Nat) : Command → Bool
  | .unsubscribe other => other == id
  | .subscribeOnly _ => true
  | _ => false

def registrations (commands : List Command) : Nat := commands.countP fun c => c.registers?.isSome

/-- The subscriptions that commands make and that no later one of them ends, oldest first.  The first
one that is made has the id `next`. -/
def alive (next : Nat) : List Command → List Subscription
  | [] => []
  | c :: rest =>
    match c.registers? with
    | some label =>
      (if rest.any (ends next) then [] else [⟨next, label⟩]) ++ alive (next + 1) rest
    | none => alive next rest

theorem registrations_cons (c : Command) (rest : List Command) :
    registrations (c :: rest) = registrations [c] + registrations rest := by
  simp only [registrations, List.countP_cons, List.countP_nil]
  omega

theorem alive_cons (next : Nat) (c : Command) (rest : List Command) :
    alive next (c :: rest)
      = (c.registers?.toList.map (Subscription.mk next)).filter (fun s => !rest.any (ends s.id))
        ++ alive (next + registrations [c]) rest := by
  cases made : c.registers? with
  | none => simp [alive, registrations, made]
  | some label =>
    have one : registrations [c] = 1 := by simp [registrations, made]
    cases ended : rest.any (ends next) <;> simp [alive, made, one, ended]

section

variable {next : Nat} {s : Subscription}

theorem mem_alive_cons {c : Command} {rest : List Command} :
    s ∈ alive next (c :: rest) ↔
      (c.registers? = some s.label ∧ s.id = next ∧ rest.any (ends s.id) = false) ∨
        s ∈ alive (next + registrations [c]) rest := by
  obtain ⟨id, label⟩ := s
  rw [alive_cons, List.mem_append, List.mem_filter, List.mem_map]
  refine or_congr ⟨?_, ?_⟩ Iff.rfl
  · rintro ⟨⟨made, mem, same⟩, kept⟩
    cases same
    exact ⟨Option.mem_toList.mp mem, rfl, by simpa using kept⟩
  · rintro ⟨made, rfl, kept⟩
    exact ⟨⟨label, Option.mem_toList.mpr made, rfl⟩, by simpa using kept⟩

/-- A subscription is alive when a command made it and none has ended it since. -/
theorem mem_alive_iff {commands : List Command} :
    s ∈ alive next commands ↔
      ∃ before c after, commands = before ++ c :: after ∧ c.registers? = some s.label ∧
        s.id = next + registrations before ∧ after.any (ends s.id) = false := by
  induction commands generalizing next with
  | nil => simp [alive]
  | cons c rest ih =>
    rw [mem_alive_cons, ih]
    constructor
    · rintro (⟨made, id, kept⟩ | ⟨before, c', after, rfl, made, id, kept⟩)
      · exact ⟨[], c, rest, rfl, made, id, kept⟩
      · exact ⟨c :: before, c', after, rfl, made, by rw [registrations_cons, id, Nat.add_assoc], kept⟩
    · rintro ⟨before, c', after, parts, made, id, kept⟩
      cases before with
      | nil =>
        cases parts
        exact .inl ⟨made, id, kept⟩
      | cons first before =>
        cases parts
        rw [registrations_cons, ← Nat.add_assoc] at id
        exact .inr ⟨before, c', after, rfl, made, id, kept⟩

end

/-- Younger subscriptions have greater ids. -/
theorem alive_increasing (next : Nat) (commands : List Command) :
    (∀ s ∈ alive next commands, next ≤ s.id) ∧
      ((alive next commands).map Subscription.id).Pairwise (· < ·) := by
  induction commands generalizing next with
  | nil => exact ⟨by simp [alive], .nil⟩
  | cons c rest ih =>
    cases made : c.registers? with
    | none => simpa only [alive, made] using ih next
    | some label =>
      obtain ⟨least, increasing⟩ := ih (next + 1)
      have above : ∀ s ∈ alive (next + 1) rest, next < s.id := fun s mem => least s mem
      simp only [alive, made]
      split
      · exact ⟨fun s mem => (above s mem).le, increasing⟩
      · simp only [List.singleton_append, List.forall_mem_cons, List.map_cons, List.pairwise_cons,
          List.forall_mem_map]
        exact ⟨⟨le_rfl, fun s mem => (above s mem).le⟩, above, increasing⟩

/-- Commands that name a symbol leave subscriptions alone. -/
theorem registers?_of_symbol {c : Command} {symbol : String} (named : c.symbol? = some symbol) :
    c.registers? = none ∧ ∀ id, c.ends id = false := by
  cases c with
  | fill | apply | adjust | ensure | setMethod => exact ⟨rfl, fun _ => rfl⟩
  | _ => cases named

end Command

/-! ## Books -/

namespace Book

/-- Every subscription of a book has an id that was given out before. -/
def Numbered (b : Book) : Prop := ∀ s ∈ b.subscriptions, s.id < b.nextSubscription

theorem nextSubscription_step (b : Book) (c : Command) :
    (b.step c).book.nextSubscription = b.nextSubscription + Command.registrations [c] := by
  cases named : c.symbol? with
  | some symbol =>
    obtain ⟨_, publisher, book⟩ := step_of_symbol (b := b) named
    simp [book, put, Command.registrations, (Command.registers?_of_symbol named).1]
  | none =>
    cases c with
    | unsubscribe | receive | disconnect =>
      simp only [step]
      split <;> rfl
    | clear | setDefaultMethod | subscribe | subscribeOnly | openChannel | query => rfl
    | _ => cases named

/-- A command ends subscriptions, and then makes one if it registers a subscriber. -/
theorem subscriptions_step {b : Book} (numbered : b.Numbered) (c : Command) :
    (b.step c).book.subscriptions
      = (b.subscriptions.filter fun s => !c.ends s.id)
        ++ c.registers?.toList.map (Subscription.mk b.nextSubscription) := by
  cases named : c.symbol? with
  | some symbol =>
    obtain ⟨_, publisher, book⟩ := step_of_symbol (b := b) named
    obtain ⟨none_made, none_ended⟩ := Command.registers?_of_symbol named
    simp [book, put, none_made, none_ended]
  | none =>
    cases c with
    | unsubscribe id =>
      simp only [step]
      split
      next given =>
        refine Eq.trans (List.filter_congr fun s _ => ?_) (List.append_nil _).symm
        exact congrArg not BEq.comm
      next unknown =>
        -- An id that is yet to be given out belongs to no subscription.
        have kept : ∀ s ∈ b.subscriptions, (!(Command.unsubscribe id).ends s.id) = true := by
          intro s mem
          have below := numbered s mem
          simp only [Command.ends, Bool.not_eq_true', beq_eq_false_iff_ne]
          omega
        simp [List.filter_eq_self.mpr kept, Command.registers?]
    | receive | disconnect =>
      simp only [step]
      split <;> simp [Command.ends, Command.registers?]
    | clear | setDefaultMethod | subscribe | subscribeOnly | openChannel | query =>
      simp [step, clear, setDefaultMethod, subscribe, subscribeOnly, Publisher.openChannel,
        Command.ends, Command.registers?]
    | _ => cases named

theorem Numbered.step {b : Book} (numbered : b.Numbered) (c : Command) : (b.step c).book.Numbered := by
  intro s mem
  rw [subscriptions_step numbered, List.mem_append, List.mem_filter, List.mem_map] at mem
  rw [nextSubscription_step]
  obtain ⟨old, _⟩ | ⟨label, made, rfl⟩ := mem
  · have below := numbered s old
    omega
  · rw [Option.mem_toList] at made
    simp [Command.registrations, Option.mem_def.mp made]

theorem Numbered.run {b : Book} (numbered : b.Numbered) (commands : List Command) :
    (b.run commands).1.Numbered := by
  induction commands generalizing b with
  | nil => exact numbered
  | cons c rest ih => exact ih (numbered.step c)

/-- At the end of a run the subscriptions are those of the start that no command has ended, and after
them those that the run has made and not ended. -/
theorem subscriptions_run {b : Book} (numbered : b.Numbered) (commands : List Command) :
    (b.run commands).1.subscriptions
      = (b.subscriptions.filter fun s => !commands.any (Command.ends s.id))
        ++ Command.alive b.nextSubscription commands := by
  induction commands generalizing b with
  | nil => simp [run, Command.alive]
  | cons c rest ih =>
    rw [run, ih (numbered.step c), subscriptions_step numbered, nextSubscription_step]
    rw [Command.alive_cons, ← List.append_assoc]
    simp [List.filter_append, List.filter_filter, Bool.and_comm]

end Book

/-! ## What subscribers are shown -/

namespace Moment

/-- The position that an accepted fill left. -/
def filled? (m : Moment) : Option Position :=
  match m.command.notified?, m.step.answer with
  | some (symbol, _), .outcome (.ok _) => m.step.book.find? symbol
  | _, _ => none

def registered? (m : Moment) : Option Nat :=
  match m.command.registers?, m.step.answer with
  | some _, .id id => some id
  | _, _ => none

theorem registered?_eq (m : Moment) :
    m.registered? = m.command.registers?.map fun _ => m.before.nextSubscription := by
  obtain ⟨b, c⟩ := m
  cases c with
  | subscribe | subscribeOnly => rfl
  | _ => rfl

theorem isSome_filled? (m : Moment) : m.filled?.isSome = m.accepted := by
  obtain ⟨b, c⟩ := m
  cases told : c.notified? with
  | none => simp [filled?, accepted, told]
  | some asked =>
    obtain ⟨symbol, fill⟩ := asked
    cases answer : (b.step c).answer with
    | outcome result =>
      cases result with
      | error => simp [filled?, accepted, told, answer]
      | ok =>
        have found := Book.find?_step_of_symbol (b := b) (Command.of_notified told).1 symbol
        simp [filled?, accepted, told, answer, found]
    | _ => simp [filled?, accepted, told, answer]

end Moment

namespace Book

theorem notices_of_quiet {b : Book} {c : Command} (quiet : c.notified? = none) :
    (b.step c).notices = [] := by
  cases named : c.symbol? with
  | some symbol => exact (step_of_quiet named quiet).2.2
  | none =>
    cases c with
    | unsubscribe | receive | disconnect =>
      simp only [step]
      split <;> rfl
    | clear | setDefaultMethod | subscribe | subscribeOnly | openChannel | query => rfl
    | _ => cases named

/-- An accepted fill shows the position that it left to every subscriber, and nothing else is shown. -/
theorem notices_step (b : Book) (c : Command) :
    (b.step c).notices
      = (⟨b, c⟩ : Moment).filled?.elim [] fun p => b.subscriptions.map fun s => ⟨s.label, p⟩ := by
  cases told : c.notified? with
  | none => simp [notices_of_quiet told, Moment.filled?, told]
  | some asked =>
    obtain ⟨symbol, fill⟩ := asked
    cases filled : (b.positionOrNew symbol).apply fill with
    | error failure =>
      obtain ⟨answer, _, notices⟩ := step_of_notified_error told filled
      simp [notices, Moment.filled?, told, answer]
    | ok result =>
      obtain ⟨next, outcome⟩ := result
      obtain ⟨answer, _, notices⟩ := step_of_notified_ok told filled
      have found := find?_step_of_notified_ok told filled
      simp [notices, Book.notices, Moment.filled?, told, answer, found]

theorem moments_eq (b : Book) (commands : List Command) :
    b.moments commands = (commands.inits.zip commands).map fun (done, c) => ⟨(b.run done).1, c⟩ := by
  induction commands generalizing b with
  | nil => rfl
  | cons c rest ih =>
    rw [moments, ih, List.inits_cons, List.zip_cons_cons, List.zip_map_left, List.map_cons,
      List.map_map]
    rfl

def given (ms : List Moment) : List Nat := ms.filterMap Moment.registered?

theorem given_run (b : Book) (commands : List Command) :
    given (b.moments commands) = List.range' b.nextSubscription (Command.registrations commands) := by
  induction commands generalizing b with
  | nil => rfl
  | cons c rest ih =>
    have first := Moment.registered?_eq ⟨b, c⟩
    simp only [given, moments, List.filterMap_cons, first] at ih ⊢
    rw [ih, Command.registrations_cons, nextSubscription_step]
    cases made : c.registers? with
    | none => simp [Command.registrations, made]
    | some label =>
      have one : Command.registrations [c] = 1 := by simp [Command.registrations, made]
      simp [one, Nat.add_comm 1, List.range'_succ]

/-! ## A session from its start -/

/-- An id was given to a subscriber, and no later command has taken it back or put another subscriber
in the place of all. -/
def Subscribed (b : Book) (commands : List Command) (id : Nat) : Prop :=
  ∃ before c after, commands = before ++ c :: after ∧ (⟨(b.run before).1, c⟩ : Moment).registered? = some id ∧
    ∀ later ∈ after, later ≠ .unsubscribe id ∧ ∀ label, later ≠ .subscribeOnly label

theorem ends_eq_false_iff {c : Command} {id : Nat} :
    c.ends id = false ↔ c ≠ .unsubscribe id ∧ ∀ label, c ≠ .subscribeOnly label := by
  cases c <;> simp [Command.ends]

theorem nextSubscription_run (b : Book) (commands : List Command) :
    (b.run commands).1.nextSubscription = b.nextSubscription + Command.registrations commands := by
  induction commands generalizing b with
  | nil => rfl
  | cons c rest ih => rw [run, ih, nextSubscription_step, Command.registrations_cons c rest, Nat.add_assoc]

theorem subscribed_iff {b : Book} {commands : List Command} {id : Nat} :
    b.Subscribed commands id ↔ ∃ s ∈ Command.alive b.nextSubscription commands, s.id = id := by
  constructor
  · rintro ⟨before, c, after, rfl, given, kept⟩
    rw [Moment.registered?_eq, Option.map_eq_some_iff] at given
    obtain ⟨label, made, rfl⟩ := given
    refine ⟨⟨_, label⟩, Command.mem_alive_iff.mpr ⟨before, c, after, rfl, made, ?_, ?_⟩, rfl⟩
    · exact nextSubscription_run b before
    · simpa only [List.any_eq_false, Bool.not_eq_true, ends_eq_false_iff] using kept
  · rintro ⟨s, mem, rfl⟩
    obtain ⟨before, c, after, rfl, made, id, kept⟩ := Command.mem_alive_iff.mp mem
    refine ⟨before, c, after, rfl, ?_, ?_⟩
    · rw [Moment.registered?_eq, made, id, ← nextSubscription_run]
      rfl
    · simpa only [List.any_eq_false, Bool.not_eq_true, ends_eq_false_iff] using kept

/-- What taking back a subscription does at the end of a run. -/
structure TakesBack (b : Book) (commands : List Command) (id : Nat) : Prop where
  true_iff : ((b.run commands).1.step (.unsubscribe id)).answer = .removed true ↔ b.Subscribed commands id
  false_of_ended : id ∈ given (b.moments commands) → ¬ b.Subscribed commands id →
    ((b.run commands).1.step (.unsubscribe id)).answer = .removed false
  removed : b.Subscribed commands id → ∃ older s younger,
    (b.run commands).1.subscriptions = older ++ s :: younger ∧ s.id = id ∧
      ((b.run commands).1.step (.unsubscribe id)).book.subscriptions = older ++ younger
  kept : ¬ b.Subscribed commands id →
    ((b.run commands).1.step (.unsubscribe id)).book = (b.run commands).1

theorem exists_parts_of_mem {subscriptions : List Subscription} {s : Subscription}
    (increasing : (subscriptions.map Subscription.id).Pairwise (· < ·)) (mem : s ∈ subscriptions) :
    ∃ older younger, subscriptions = older ++ s :: younger ∧
      subscriptions.filter (fun other => other.id != s.id) = older ++ younger := by
  obtain ⟨older, younger, rfl⟩ := List.append_of_mem mem
  refine ⟨older, younger, rfl, ?_⟩
  rw [List.map_append, List.map_cons, List.pairwise_append, List.pairwise_cons] at increasing
  obtain ⟨_, ⟨above, _⟩, below⟩ := increasing
  have older_kept : ∀ other ∈ older, (other.id != s.id) = true := fun other mem => by
    simpa using (below other.id (List.mem_map_of_mem mem) s.id List.mem_cons_self).ne
  have younger_kept : ∀ other ∈ younger, (other.id != s.id) = true := fun other mem => by
    simpa using (above other.id (List.mem_map_of_mem mem)).ne'
  simp [List.filter_append, List.filter_eq_self.mpr older_kept, List.filter_eq_self.mpr younger_kept]

theorem takesBack {b : Book} (none_yet : b.subscriptions = []) (commands : List Command) (id : Nat) :
    b.TakesBack commands id := by
  have numbered : b.Numbered := by simp [Numbered, none_yet]
  have at_end : (b.run commands).1.subscriptions = Command.alive b.nextSubscription commands := by
    simp [subscriptions_run numbered, none_yet]
  have given_iff : id ∈ given (b.moments commands) ↔
      b.nextSubscription ≤ id ∧ id < (b.run commands).1.nextSubscription := by
    rw [given_run, List.mem_range'_1, nextSubscription_run]
  have below := numbered.run commands
  rw [Numbered, at_end] at below
  by_cases subscribed : b.Subscribed commands id
  · obtain ⟨s, mem, rfl⟩ := subscribed_iff.mp subscribed
    have there : (b.run commands).1.subscriptions.any (fun other => other.id == s.id) = true := by
      rw [at_end, List.any_eq_true]
      exact ⟨s, mem, beq_self_eq_true s.id⟩
    have stepped : (b.run commands).1.step (.unsubscribe s.id)
        = { answer := .removed true, book := ((b.run commands).1.unsubscribe s.id).1 } := by
      simp only [step, if_pos (below s mem), unsubscribe, there]
    refine ⟨iff_of_true (by rw [stepped]) subscribed, fun _ ended => absurd subscribed ended, fun _ => ?_,
      fun ended => absurd subscribed ended⟩
    -- Ids increase, so that no other subscription goes with the one that is taken back.
    obtain ⟨older, younger, parts, removed⟩ :=
      exists_parts_of_mem (Command.alive_increasing _ _).2 mem
    refine ⟨older, s, younger, at_end.trans parts, rfl, ?_⟩
    simp only [stepped, unsubscribe, at_end, removed]
  · have absent : ∀ s ∈ (b.run commands).1.subscriptions, s.id ≠ id := by
      rw [at_end]
      exact fun s mem same => subscribed (subscribed_iff.mpr ⟨s, mem, same⟩)
    have unchanged : (b.run commands).1.unsubscribe id = ((b.run commands).1, false) := by
      simp only [unsubscribe]
      rw [List.filter_eq_self.mpr (by simpa using absent), List.any_eq_false.mpr (by simpa using absent)]
    refine ⟨iff_of_false ?_ subscribed, fun known _ => ?_, fun still => absurd still subscribed, fun _ => ?_⟩
    · simp only [step, unchanged]
      split <;> simp
    · simp only [step, unchanged, if_pos (given_iff.mp known).2]
    · simp only [step, unchanged]
      split <;> rfl

/-- Subscribers are called once for every accepted fill that is told of, in the order in which they were
registered, with the position as the fill left it.  Ids are given once, a subscription can be taken back
as long as it lasts, and a subscriber that is made the only one is the only one. -/
theorem subscribers_called (settings : Settings) (commands : List Command) :
    let b := (ofSettings settings).value
    let ms := b.moments commands
    (b.run commands).2.flatMap Step.notices
        = (commands.inits.zip commands).flatMap (fun (done, c) =>
            (⟨(b.run done).1, c⟩ : Moment).filled?.elim [] fun p =>
              (Command.alive 0 done).map fun s => ⟨s.label, p⟩) ∧
      (∀ m ∈ ms, m.filled?.isSome = m.accepted) ∧
      (b.run commands).1.subscriptions = Command.alive 0 commands ∧
      given ms = List.range (Command.registrations commands) ∧
      (∀ id, b.TakesBack commands id) ∧
      ∀ label, ((b.run commands).1.step (.subscribeOnly label)).book.subscriptions
        = [⟨Command.registrations commands, label⟩] := by
  intro b ms
  have numbered : b.Numbered := fun _ mem => by cases mem
  have at_end : ∀ done, (b.run done).1.subscriptions = Command.alive 0 done := fun done =>
    subscriptions_run numbered done
  refine ⟨?_, fun m _ => m.isSome_filled?, at_end commands, ?_, takesBack rfl commands, fun label => ?_⟩
  · rw [steps_eq, moments_eq, List.map_map, List.flatMap_map]
    refine List.flatMap_congr fun (done, c) _ => ?_
    simp only [Function.comp_apply, Moment.step_mk, notices_step, at_end]
  · rw [List.range_eq_range']
    exact given_run b commands
  · have next := nextSubscription_run b commands
    rw [show b.nextSubscription = 0 from rfl, Nat.zero_add] at next
    rw [← next]
    rfl

end Book

end CostBasis
