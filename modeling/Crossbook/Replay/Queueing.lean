import Crossbook.Replay.OpenLoop

set_option autoImplicit false

namespace Crossbook

namespace Replay

open OneServer (Visit Served)

variable {σ : Type}

section Instants

def Steady (clock : List UInt64) : Prop := clock.Pairwise (· ≤ ·)

def past (latest : Nat) (clock : List UInt64) : Nat := clock.countP (latest ≤ ·.toNat)

theorem past_cons_le (latest : Nat) (now : UInt64) (later : List UInt64) :
    past latest (now :: later) ≤ past latest later + 1 := by
  rw [past, List.countP_cons]
  split <;> simp [past]

theorem past_cons_of_lt {latest : Nat} {now : UInt64} (early : now.toNat < latest)
    (later : List UInt64) : past latest (now :: later) = past latest later := by
  rw [past, List.countP_cons_of_neg (by simpa using early), past]

/-- Instants that last for replays one after the other, each of `count` events that are due within
`span` of its first look at the clock: more than three for each event are past that. -/
def Lasts : List (Nat × Nat) → List UInt64 → Prop
  | [], _ => True
  | _ :: _, [] => False
  | (span, count) :: rest, first :: clock =>
    3 * count < past (first.toNat + span) clock ∧
      Lasts rest (clock.drop (clock.length - past (first.toNat + span) clock + (3 * count + 1)))

theorem drop_past_suffix {latest spent : Nat} {clock later : List UInt64} (behind : later <:+ clock)
    (left : past latest clock ≤ past latest later + spent) :
    clock.drop (clock.length - past latest clock + spent) <:+ later := by
  refine List.suffix_of_suffix_length_le (List.drop_suffix _ _) behind ?_
  have some_ : past latest clock ≤ clock.length := List.countP_le_length
  have few : past latest later ≤ later.length := List.countP_le_length
  rw [List.length_drop]
  omega

theorem Lasts.longer {needs : List (Nat × Nat)} {clock longer : List UInt64}
    (lasts : Lasts needs clock) (behind : clock <:+ longer) (steady : Steady longer) :
    Lasts needs longer := by
  induction needs generalizing clock longer with
  | nil => trivial
  | cons need rest ih =>
    obtain ⟨span, count⟩ := need
    cases clock with
    | nil => exact absurd lasts id
    | cons first clock =>
      cases longer with
      | nil => simp at behind
      | cons start more =>
        obtain ⟨enough, next⟩ := lasts
        obtain ⟨earlier, inOrder⟩ := List.pairwise_cons.mp steady
        rcases List.suffix_cons_iff.mp behind with same | behind
        · obtain ⟨rfl, rfl⟩ := List.cons.inj same
          exact ⟨enough, next⟩
        have sooner : start.toNat ≤ first.toNat :=
          UInt64.le_iff_toNat_le.mp (earlier first (behind.subset List.mem_cons_self))
        have tail : clock <:+ more := (List.suffix_cons first clock).trans behind
        have more_ : past (first.toNat + span) clock ≤ past (start.toNat + span) more := by
          refine (tail.sublist.countP_le).trans (List.countP_mono_left fun now _ => ?_)
          simp only [decide_eq_true_eq]
          omega
        refine ⟨enough.trans_le more_, ih next ?_ (inOrder.sublist (List.drop_sublist _ _))⟩
        refine List.suffix_of_suffix_length_le ((List.drop_suffix _ _).trans tail)
          (List.drop_suffix _ _) ?_
        have all : past (start.toNat + span) more ≤ more.length := List.countP_le_length
        have some_ : past (first.toNat + span) clock ≤ clock.length := List.countP_le_length
        rw [List.length_drop, List.length_drop]
        omega

theorem waitUntil_returns {targetNs : UInt64} {latest : Nat} (soon : targetNs.toNat ≤ latest)
    {clock : List UInt64} (enough : 0 < past latest clock) :
    ∃ idle begun later, waitUntil targetNs clock = some ((), later) ∧
      clock = idle ++ begun :: later ∧ (∀ now ∈ idle, now < targetNs) ∧ targetNs ≤ begun ∧
      past latest clock ≤ past latest later + 1 := by
  induction clock with
  | nil => simp [past] at enough
  | cons now later ih =>
    by_cases due : targetNs ≤ now
    · exact ⟨[], now, later, by rw [waitUntil, if_pos due], rfl, by simp, due, past_cons_le _ _ _⟩
    · have early := UInt64.not_le.mp due
      have same := past_cons_of_lt ((UInt64.lt_iff_toNat_lt.mp early).trans_le soon) later
      rw [same] at enough ⊢
      obtain ⟨idle, begun, rest, returns, split, waiting, late, left⟩ := ih enough
      refine ⟨now :: idle, begun, rest, by rw [waitUntil, if_neg due]; exact returns, ?_, ?_, late,
        left⟩
      · rw [split, List.cons_append]
      · exact List.forall_mem_cons.mpr ⟨early, waiting⟩

/-- The instants that a visit uses up: the clock is read until it shows that the event is due, then
the handler returns, and unless the event only warms up the clock is read again. -/
inductive Takes : Bool → Visit → List UInt64 → List UInt64 → Prop
  | warming {due : Nat} {idle : List UInt64} {begun : UInt64} (ended : UInt64) (later : List UInt64)
      (early : ∀ now ∈ idle, now.toNat < due) (late : due ≤ begun.toNat) :
      Takes false ⟨due, (idle.headD begun).toNat, begun.toNat, ended.toNat, ended.toNat⟩
        (idle ++ begun :: ended :: later) later
  | measured {due : Nat} {idle : List UInt64} {begun : UInt64} (ended noted : UInt64)
      (later : List UInt64) (early : ∀ now ∈ idle, now.toNat < due) (late : due ≤ begun.toNat) :
      Takes true ⟨due, (idle.headD begun).toNat, begun.toNat, ended.toNat, noted.toNat⟩
        (idle ++ begun :: ended :: noted :: later) later

def Spends (options : ReplayOptions) : Nat → List Visit → List UInt64 → List UInt64 → Prop
  | _, [], clock, later => clock = later
  | i, visit :: rest, clock, later =>
    ∃ between, Takes (decide (options.warmupEvents ≤ i)) visit clock between ∧
      Spends options (i + 1) rest between later

theorem Takes.suffix {counted : Bool} {visit : Visit} {clock later : List UInt64}
    (takes : Takes counted visit clock later) : later <:+ clock := by
  cases takes with
  | @warming due idle begun ended => exact ⟨idle ++ [begun, ended], by simp⟩
  | @measured due idle begun ended noted => exact ⟨idle ++ [begun, ended, noted], by simp⟩

theorem Spends.suffix {options : ReplayOptions} {i : Nat} {visits : List Visit}
    {clock later : List UInt64} (spends : Spends options i visits clock later) : later <:+ clock := by
  induction visits generalizing i clock with
  | nil => exact spends ▸ List.suffix_rfl
  | cons visit rest ih =>
    obtain ⟨between, takes, more⟩ := spends
    exact (ih more).trans takes.suffix

theorem Takes.lateness_lt {counted : Bool} {visit : Visit} {clock later : List UInt64}
    (takes : Takes counted visit clock later) : visit.lateness < 2 ^ 64 := by
  cases takes with
  | warming => exact (Nat.sub_le _ _).trans_lt (UInt64.toNat_lt _)
  | measured => exact (Nat.sub_le _ _).trans_lt (UInt64.toNat_lt _)

theorem Spends.lateness_lt {options : ReplayOptions} {i : Nat} {visits : List Visit}
    {clock later : List UInt64} (spends : Spends options i visits clock later) :
    ∀ visit ∈ visits, visit.lateness < 2 ^ 64 := by
  induction visits generalizing i clock with
  | nil => simp
  | cons visit rest ih =>
    obtain ⟨between, takes, more⟩ := spends
    exact List.forall_mem_cons.mpr ⟨takes.lateness_lt, ih more⟩

section Order

variable {free begun : UInt64} {idle later : List UInt64}

theorem Steady.reaches (steady : Steady (free :: (idle ++ begun :: later))) :
    free ≤ idle.headD begun ∧ idle.headD begun ≤ begun ∧ Steady (begun :: later) := by
  obtain ⟨first, rest⟩ := List.pairwise_cons.mp steady
  obtain ⟨waiting, behind, across⟩ := List.pairwise_append.mp rest
  cases idle with
  | nil => exact ⟨first _ (by simp), UInt64.le_refl _, behind⟩
  | cons reached idle =>
    exact ⟨first _ (by simp), across _ (by simp) _ (by simp), behind⟩

theorem Steady.next {now : UInt64} (steady : Steady (free :: now :: later)) :
    free ≤ now ∧ Steady (now :: later) :=
  ⟨(List.pairwise_cons.mp steady).1 _ List.mem_cons_self, (List.pairwise_cons.mp steady).2⟩

end Order

theorem Takes.ordered {counted : Bool} {visit : Visit} {free : UInt64} {clock later : List UInt64}
    (takes : Takes counted visit clock later) (steady : Steady (free :: clock)) :
    visit.Ordered free.toNat ∧ ∃ noted : UInt64, visit.noted = noted.toNat ∧
      Steady (noted :: later) := by
  cases takes with
  | warming ended _ early late =>
    obtain ⟨first, reaches, steady⟩ := steady.reaches
    obtain ⟨ends, steady⟩ := steady.next
    exact ⟨⟨UInt64.le_iff_toNat_le.mp first, UInt64.le_iff_toNat_le.mp reaches, late,
      UInt64.le_iff_toNat_le.mp ends, le_refl _⟩, ended, rfl, steady⟩
  | measured ended noted _ early late =>
    obtain ⟨first, reaches, steady⟩ := steady.reaches
    obtain ⟨ends, steady⟩ := steady.next
    obtain ⟨notes, steady⟩ := steady.next
    exact ⟨⟨UInt64.le_iff_toNat_le.mp first, UInt64.le_iff_toNat_le.mp reaches, late,
      UInt64.le_iff_toNat_le.mp ends, UInt64.le_iff_toNat_le.mp notes⟩, noted, rfl, steady⟩

theorem Spends.served {options : ReplayOptions} {i : Nat} {visits : List Visit} {free : UInt64}
    {clock later : List UInt64} (spends : Spends options i visits clock later)
    (steady : Steady (free :: clock)) : Served free.toNat visits := by
  induction visits generalizing i free clock with
  | nil => trivial
  | cons visit rest ih =>
    obtain ⟨between, takes, more⟩ := spends
    obtain ⟨ordered, noted, same, steady⟩ := takes.ordered steady
    exact ⟨ordered, same ▸ ih more steady⟩

end Instants

section Accounting

variable (handler : σ → ReplayEvent → σ) (options : ReplayOptions)

def account (i : Nat) (run : OpenLoop σ) (step : ReplayEvent × Visit) : OpenLoop σ :=
  if i < options.warmupEvents then (run.handle handler step.1).skip
  else
    let paced :=
      if options.recordFallingBehind then run.late (UInt64.ofNat step.2.lateness) else run
    (paced.handle handler step.1).measure (UInt64.ofNat step.2.sojourn)

def accountAll : Nat → List (ReplayEvent × Visit) → OpenLoop σ → OpenLoop σ
  | _, [], run => run
  | i, step :: rest, run => accountAll (i + 1) rest (account handler options i run step)

theorem late_zero (run : OpenLoop σ) : run.late 0 = run := by
  rw [OpenLoop.late, if_neg (by decide)]

theorem ofNat_toNat_sub {earlier later : UInt64} (before : earlier ≤ later) :
    UInt64.ofNat (later.toNat - earlier.toNat) = later - earlier := by
  rw [← UInt64.toNat_inj, UInt64.toNat_sub_of_le _ _ before]
  exact UInt64.toNat_ofNat_of_lt' (Nat.lt_of_le_of_lt (Nat.sub_le _ _) later.toNat_lt)

theorem ofNat_toNat_sub_of_le {earlier later : UInt64} (after : later ≤ earlier) :
    UInt64.ofNat (later.toNat - earlier.toNat) = 0 := by
  rw [Nat.sub_eq_zero_of_le (UInt64.le_iff_toNat_le.mp after)]
  rfl

theorem ofNat_sojourn (scheduled completed : UInt64) :
    UInt64.ofNat (completed.toNat - scheduled.toNat) =
      if completed > scheduled then completed - scheduled else 0 := by
  split
  next after => exact ofNat_toNat_sub (UInt64.le_of_lt after)
  next before => exact ofNat_toNat_sub_of_le (UInt64.not_lt.mp before)

theorem pace_returns {scheduled : UInt64} {latest : Nat} (soon : scheduled.toNat ≤ latest) (i : Nat)
    (run : OpenLoop σ) {clock : List UInt64} (enough : 0 < past latest clock) :
    ∃ idle begun later,
      pace options scheduled i run clock =
        some (if options.recordFallingBehind ∧ options.warmupEvents ≤ i then
          run.late (UInt64.ofNat ((idle.headD begun).toNat - scheduled.toNat)) else run, later) ∧
      clock = idle ++ begun :: later ∧ (∀ now ∈ idle, now < scheduled) ∧ scheduled ≤ begun ∧
      past latest clock ≤ past latest later + 1 := by
  -- Pacing takes at most one of the instants past every schedule.
  cases clock with
  | nil => simp [past] at enough
  | cons reached tail =>
    by_cases early : reached < scheduled
    · have same := past_cons_of_lt ((UInt64.lt_iff_toNat_lt.mp early).trans_le soon) tail
      rw [same] at enough ⊢
      obtain ⟨idle, begun, later, waits, split, waiting, due, left⟩ := waitUntil_returns soon enough
      refine ⟨reached :: idle, begun, later, ?_, by rw [split, List.cons_append],
        List.forall_mem_cons.mpr ⟨early, waiting⟩, due, left⟩
      simp only [pace, bind, StateT.bind, nowNs, Option.bind_some, if_pos early, waits,
        List.headD_cons, ofNat_toNat_sub_of_le (UInt64.le_of_lt early), late_zero, ite_self]
      rfl
    · have overdue := UInt64.not_lt.mp early
      refine ⟨[], reached, tail, ?_, rfl, by simp, overdue, past_cons_le _ _ _⟩
      simp only [pace, bind, StateT.bind, nowNs, Option.bind_some, if_neg early, List.headD_nil,
        ofNat_toNat_sub overdue, Bool.and_eq_true, decide_eq_true_eq]
      split <;> rfl

theorem replayEvent_returns {scheduled : UInt64} {latest : Nat} (soon : scheduled.toNat ≤ latest)
    (i : Nat) (event : ReplayEvent) (run : OpenLoop σ) {clock : List UInt64}
    (enough : 3 ≤ past latest clock) :
    ∃ visit later,
      replayEvent handler options scheduled i event run clock =
        some (account handler options i run (event, visit), later) ∧
      visit.due = scheduled.toNat ∧ Takes (decide (options.warmupEvents ≤ i)) visit clock later ∧
      past latest clock ≤ past latest later + 3 := by
  -- An event takes at most three of the instants past every schedule.
  have some_ : 0 < past latest clock := by omega
  obtain ⟨idle, begun, later, paces, split, waiting, due, left⟩ :=
    pace_returns options soon i run some_
  have waiting : ∀ now ∈ idle, now.toNat < scheduled.toNat :=
    fun now member => UInt64.lt_iff_toNat_lt.mp (waiting now member)
  have due := UInt64.le_iff_toNat_le.mp due
  obtain _ | ⟨ended, _ | ⟨noted, rest⟩⟩ := later
  · have none_ : past latest [] = 0 := rfl
    omega
  · have one := past_cons_le latest ended []
    have none_ : past latest [] = 0 := rfl
    omega
  have first := past_cons_le latest ended (noted :: rest)
  have second := past_cons_le latest noted rest
  by_cases warming : i < options.warmupEvents
  · have cold : ¬ options.warmupEvents ≤ i := Nat.not_le.mpr warming
    refine ⟨⟨scheduled.toNat, (idle.headD begun).toNat, begun.toNat, ended.toNat, ended.toNat⟩,
      noted :: rest, ?_, rfl, ?_, by omega⟩
    · simp only [replayEvent, bind, StateT.bind, paces, Option.bind_some, if_pos warming, cold,
        and_false, if_false, OpenLoop.work, account]
      rfl
    · rw [split, decide_eq_false cold]
      exact .warming ended _ waiting due
  · have warm := Nat.le_of_not_lt warming
    refine ⟨⟨scheduled.toNat, (idle.headD begun).toNat, begun.toNat, ended.toNat, noted.toNat⟩,
      rest, ?_, rfl, ?_, by omega⟩
    · have stays := ofNat_sojourn scheduled noted
      simp only [replayEvent, bind, StateT.bind, paces, Option.bind_some, if_neg warming, nowNs,
        OpenLoop.work, account, warm, and_true, Visit.lateness, Visit.sojourn, stays]
      rfl
    · rw [split, decide_eq_true warm]
      exact .measured ended noted _ waiting due

theorem replayEvents_returns {latest : Nat} {schedule : ReplayEvent → UInt64}
    {events : List ReplayEvent} (soon : ∀ event ∈ events, (schedule event).toNat ≤ latest) (i : Nat)
    (run : OpenLoop σ) {clock : List UInt64} (enough : 3 * events.length ≤ past latest clock) :
    ∃ visits later,
      replayEvents handler options schedule i events run clock =
        some (accountAll handler options i (events.zip visits) run, later) ∧
      visits.map Visit.due = events.map (fun event => (schedule event).toNat) ∧
      Spends options i visits clock later ∧
      past latest clock ≤ past latest later + 3 * events.length := by
  induction events generalizing i run clock with
  | nil => exact ⟨[], clock, rfl, rfl, rfl, by omega⟩
  | cons event rest ih =>
    obtain ⟨here, others⟩ := List.forall_mem_cons.mp soon
    rw [List.length_cons] at enough ⊢
    have three : 3 ≤ past latest clock := by omega
    obtain ⟨visit, between, returns, due, takes, left⟩ :=
      replayEvent_returns handler options here i event run three
    have remain : 3 * rest.length ≤ past latest between := by omega
    obtain ⟨visits, later, more, dues, spends, last⟩ :=
      ih others (i + 1) (account handler options i run (event, visit)) remain
    refine ⟨visit :: visits, later, ?_, ?_, ⟨between, takes, spends⟩, by omega⟩
    · simp only [replayEvents, bind, StateT.bind, returns, Option.bind_some]
      exact more
    · rw [List.map_cons, List.map_cons, due, dues]

def measured (i : Nat) (visits : List Visit) : List Visit := visits.drop (options.warmupEvents - i)

def latencies (i : Nat) (visits : List Visit) : List UInt64 :=
  (measured options i visits).map fun visit => UInt64.ofNat visit.sojourn

def tardy (i : Nat) (visits : List Visit) : List Nat :=
  if options.recordFallingBehind then
    ((measured options i visits).map Visit.lateness).filter (kDeadlineToleranceNs.toNat < ·)
  else []

theorem measured_warming {i : Nat} (warming : i < options.warmupEvents) (visit : Visit)
    (rest : List Visit) : measured options i (visit :: rest) = measured options (i + 1) rest := by
  have one : options.warmupEvents - i = options.warmupEvents - (i + 1) + 1 := by omega
  rw [measured, one, List.drop_succ_cons, measured]

theorem measured_warm {i : Nat} (warm : options.warmupEvents ≤ i) (visits : List Visit) :
    measured options i visits = visits := by
  rw [measured, Nat.sub_eq_zero_of_le warm, List.drop_zero]

theorem account_handled (i : Nat) (run : OpenLoop σ) (step : ReplayEvent × Visit) :
    (account handler options i run step).handled = handler run.handled step.1 := by
  unfold account OpenLoop.skip OpenLoop.measure OpenLoop.handle OpenLoop.late
  split_ifs <;> rfl

theorem accountAll_handled (i : Nat) (run : OpenLoop σ) (steps : List (ReplayEvent × Visit)) :
    (accountAll handler options i steps run).handled =
      (steps.map Prod.fst).foldl handler run.handled := by
  induction steps generalizing i run with
  | nil => rfl
  | cons step rest ih => rw [accountAll, ih, account_handled, List.map_cons, List.foldl_cons]

structure Measures (before after : OpenLoop σ) (i : Nat) (visits : List Visit) : Prop where
  histogram : after.histogram = (latencies options i visits).foldl Histogram.record before.histogram
  events : after.result.events =
    before.result.events + UInt64.ofNat (measured options i visits).length
  skipped : after.result.skipped =
    before.result.skipped + UInt64.ofNat (min (options.warmupEvents - i) visits.length)
  behind : after.result.behindSchedule =
    before.result.behindSchedule + UInt64.ofNat (tardy options i visits).length
  maxLateness : after.result.maxLateness.toNat =
    (tardy options i visits).foldl max before.result.maxLateness.toNat

theorem late_measures (run : OpenLoop σ) {n : Nat} (small : n < 2 ^ 64) :
    (run.late (UInt64.ofNat n)).result.behindSchedule = run.result.behindSchedule +
        UInt64.ofNat ([n].filter (kDeadlineToleranceNs.toNat < ·)).length ∧
      (run.late (UInt64.ofNat n)).result.maxLateness.toNat =
        ([n].filter (kDeadlineToleranceNs.toNat < ·)).foldl max run.result.maxLateness.toNat := by
  have value : (UInt64.ofNat n).toNat = n := UInt64.toNat_ofNat_of_lt' small
  by_cases late : kDeadlineToleranceNs.toNat < n
  · have above : UInt64.ofNat n > kDeadlineToleranceNs := by
      rwa [gt_iff_lt, UInt64.lt_iff_toNat_lt, value]
    have counted : [n].filter (kDeadlineToleranceNs.toNat < ·) = [n] := by simp [late]
    simp only [OpenLoop.late, if_pos above, counted, Word.if_gt_eq_max, Word.toNat_max, value]
    exact ⟨rfl, rfl⟩
  · have within : ¬ UInt64.ofNat n > kDeadlineToleranceNs := by
      rwa [gt_iff_lt, UInt64.lt_iff_toNat_lt, value]
    have counted : [n].filter (kDeadlineToleranceNs.toNat < ·) = [] := by simp [late]
    simp only [OpenLoop.late, if_neg within, counted]
    exact ⟨(UInt64.add_zero _).symm, rfl⟩

theorem account_warming {i : Nat} (warming : i < options.warmupEvents) (run : OpenLoop σ)
    (step : ReplayEvent × Visit) :
    account handler options i run step = (run.handle handler step.1).skip := by
  rw [account, if_pos warming]

theorem account_warm {i : Nat} (warm : ¬ i < options.warmupEvents) (run : OpenLoop σ)
    (step : ReplayEvent × Visit) (small : step.2.lateness < 2 ^ 64) :
    let after := account handler options i run step
    let counted := tardy options i [step.2]
    after.histogram = run.histogram.record (UInt64.ofNat step.2.sojourn) ∧
      after.result.events = run.result.events + 1 ∧
      after.result.skipped = run.result.skipped ∧
      after.result.behindSchedule =
        run.result.behindSchedule + UInt64.ofNat counted.length ∧
      after.result.maxLateness.toNat = counted.foldl max run.result.maxLateness.toNat := by
  have late := late_measures run small
  simp only [account, if_neg warm, tardy, measured_warm options (Nat.le_of_not_lt warm)]
  by_cases recorded : options.recordFallingBehind = true
  · simp only [recorded, if_true]
    refine ⟨?_, ?_, ?_, late⟩
    all_goals
      unfold OpenLoop.measure OpenLoop.handle OpenLoop.late
      split <;> rfl
  · simp only [recorded]
    exact ⟨rfl, rfl, rfl, (UInt64.add_zero _).symm, rfl⟩

theorem tardy_cons {i : Nat} (warm : ¬ i < options.warmupEvents) (visit : Visit)
    (rest : List Visit) : tardy options i (visit :: rest) =
      tardy options i [visit] ++ tardy options (i + 1) rest := by
  have here := Nat.le_of_not_lt warm
  simp only [tardy, measured_warm options here, measured_warm options (here.trans (Nat.le_succ i))]
  split
  · rw [← List.filter_append, ← List.map_append, List.singleton_append]
  · rfl

theorem accountAll_measures (i : Nat) (run : OpenLoop σ) {steps : List (ReplayEvent × Visit)}
    (small : ∀ step ∈ steps, step.2.lateness < 2 ^ 64) :
    Measures options run (accountAll handler options i steps run) i (steps.map Prod.snd) := by
  induction steps generalizing i run with
  | nil => constructor <;> simp [accountAll, latencies, measured, tardy]
  | cons step rest ih =>
    obtain ⟨here, others⟩ := List.forall_mem_cons.mp small
    have later := ih (i + 1) (account handler options i run step) others
    rw [accountAll, List.map_cons]
    by_cases warming : i < options.warmupEvents
    · have skips : min (options.warmupEvents - i) (rest.length + 1) =
          min (options.warmupEvents - (i + 1)) rest.length + 1 := by omega
      have same := measured_warming options warming step.2 (rest.map Prod.snd)
      rw [account_warming handler options warming] at later ⊢
      constructor
      · rw [later.histogram, latencies, latencies, same]
        rfl
      · rw [later.events, same]
        rfl
      · rw [later.skipped, List.length_map, List.length_cons, List.length_map, skips,
          UInt64.ofNat_add]
        change run.result.skipped + 1 + _ = _
        rw [UInt64.add_assoc, UInt64.add_comm 1]
        rfl
      · rw [later.behind, tardy, tardy, same]
        rfl
      · rw [later.maxLateness, tardy, tardy, same]
        rfl
    · have warm := Nat.le_of_not_lt warming
      have cons : measured options i (step.2 :: rest.map Prod.snd) =
          step.2 :: measured options (i + 1) (rest.map Prod.snd) := by
        rw [measured_warm options warm, measured_warm options (warm.trans (Nat.le_succ i))]
      obtain ⟨histogram, events, skipped, behind, maxLateness⟩ :=
        account_warm handler options warming run step here
      constructor
      · rw [later.histogram, histogram, latencies, latencies, cons, List.map_cons, List.foldl_cons]
      · rw [later.events, events, cons, List.length_cons, UInt64.ofNat_add, UInt64.add_assoc,
          UInt64.add_comm 1]
        rfl
      · rw [later.skipped, skipped, Nat.sub_eq_zero_of_le warm,
          Nat.sub_eq_zero_of_le (warm.trans (Nat.le_succ i)), Nat.zero_min, Nat.zero_min]
      · rw [later.behind, behind, tardy_cons options warming step.2 (rest.map _),
          List.length_append, UInt64.ofNat_add, UInt64.add_assoc]
      · rw [later.maxLateness, maxLateness, tardy_cons options warming step.2 (rest.map _),
          List.foldl_append]

end Accounting

/-- What a replay reports of its visits: their stays from when they were due, and how many were
reached too late. -/
structure Reports (options : ReplayOptions) (visits : List Visit) (result : ReplayResult) : Prop where
  latency : result.latency =
    summarise ((Layout.built 3600000000000 3).summary (latencies options 0 visits))
  events : result.events.toNat = visits.length - options.warmupEvents
  skipped : result.skipped.toNat = min options.warmupEvents visits.length
  behind : result.behindSchedule.toNat = (tardy options 0 visits).length
  maxLateness : result.maxLateness.toNat = (tardy options 0 visits).foldl max 0

theorem reports_of_measures {options : ReplayOptions} {visits : List Visit} {state : σ}
    {run : OpenLoop σ}
    (measures : Measures options ⟨state, .create 3600000000000 3, .start⟩ run 0 visits)
    (fits : visits.length < 2 ^ 64) (wallNs : UInt64) :
    Reports options visits
      { run.result with wallNs := wallNs, latency := summarise run.histogram } := by
  have kept : (measured options 0 visits).length = visits.length - options.warmupEvents := by
    rw [measured, List.length_drop, Nat.sub_zero]
  have few : (latencies options 0 visits).length < 2 ^ 64 := by
    rw [latencies, List.length_map, kept]
    omega
  have late : (tardy options 0 visits).length ≤ (measured options 0 visits).length := by
    unfold tardy
    split
    · exact (List.length_filter_le _ _).trans (List.length_map _).le
    · exact Nat.zero_le _
  have zero_add_toNat {n : Nat} (small : n < 2 ^ 64) : (0 + UInt64.ofNat n).toNat = n := by
    rw [UInt64.zero_add]
    exact UInt64.toNat_ofNat_of_lt' small
  constructor
  · change summarise run.histogram = _
    rw [measures.histogram, Histogram.create, ← Layout.summary_nil,
      Histogram.foldl_record _ _ [] (by simpa using few), List.nil_append]
  · change run.result.events.toNat = _
    rw [measures.events, ← kept]
    exact zero_add_toNat (by omega)
  · change run.result.skipped.toNat = _
    rw [measures.skipped, Nat.sub_zero]
    exact zero_add_toNat (by omega)
  · change run.result.behindSchedule.toNat = _
    rw [measures.behind]
    exact zero_add_toNat (by omega)
  · exact measures.maxLateness

theorem keptPace_iff {options : ReplayOptions} {visits : List Visit} {result : ReplayResult}
    (reports : Reports options visits result) : result.keptPace = true ↔
      (options.recordFallingBehind = true →
        ∀ visit ∈ measured options 0 visits, visit.lateness ≤ kDeadlineToleranceNs.toNat) := by
  have zero : result.keptPace = true ↔ tardy options 0 visits = [] := by
    rw [ReplayResult.keptPace, beq_iff_eq, ← UInt64.toNat_inj, reports.behind]
    exact List.length_eq_zero_iff
  rw [zero, tardy]
  split
  next recorded =>
    simp only [recorded, forall_const, List.filter_eq_nil_iff, List.forall_mem_map,
      decide_eq_true_eq, Nat.not_lt]
  next unrecorded => simp [unrecorded]

section Replay

variable (handler : σ → ReplayEvent → σ) (options : ReplayOptions) (state : σ)

def span (front : ReplayEvent) (rest : List ReplayEvent) : Nat :=
  kScheduleLeadNs.toNat + ((front :: rest).map fun event =>
    (options.offset (event.tsRecv - front.tsRecv)).toNat).foldr max 0

def needs (options : ReplayOptions) : List ReplayEvent → List (Nat × Nat)
  | [] => []
  | front :: rest => [(span options front rest, rest.length + 1)]

theorem le_foldr_max {n : Nat} {values : List Nat} (member : n ∈ values) : n ≤ values.foldr max 0 := by
  induction values with
  | nil => simp at member
  | cons value rest ih =>
    rcases List.mem_cons.mp member with rfl | later
    · exact le_max_left _ _
    · exact (ih later).trans (le_max_right _ _)

theorem offset_le_span (front : ReplayEvent) (rest : List ReplayEvent) {event : ReplayEvent}
    (member : event ∈ front :: rest) :
    kScheduleLeadNs.toNat + (options.offset (event.tsRecv - front.tsRecv)).toNat ≤
      span options front rest := by
  have inside := List.mem_map_of_mem (f := fun event : ReplayEvent =>
    (options.offset (event.tsRecv - front.tsRecv)).toNat) member
  exact Nat.add_le_add_left (le_foldr_max inside) _

def finished (events : List ReplayEvent) (visits : List Visit) : OpenLoop σ :=
  accountAll handler options 0 (events.zip visits) ⟨state, .create 3600000000000 3, .start⟩

theorem replayOpenLoop_ends (front : ReplayEvent) (rest : List ReplayEvent)
    {more : List (Nat × Nat)} {clock : List UInt64}
    (lasts : Lasts (needs options (front :: rest) ++ more) clock) :
    ∃ first readings visits done later,
      clock = first :: readings ∧
      replayOpenLoop handler options (front :: rest) state clock =
        some (({ (finished handler options state (front :: rest) visits).result with
            wallNs := done - (first + kScheduleLeadNs)
            latency := summarise (finished handler options state (front :: rest) visits).histogram },
          (front :: rest).foldl handler state), later) ∧
      visits.map Visit.due = (front :: rest).map (fun event => first.toNat + kScheduleLeadNs.toNat +
        (options.offset (event.tsRecv - front.tsRecv)).toNat) ∧
      Spends options 0 visits readings (done :: later) ∧
      (Steady clock → Lasts more later ∧ Steady later) := by
  cases clock with
  | nil => exact absurd lasts id
  | cons first readings =>
    obtain ⟨enough, others⟩ := lasts
    change 3 * (rest.length + 1) < past (first.toNat + span options front rest) readings at enough
    have top : first.toNat + span options front rest < 2 ^ 64 := by
      obtain ⟨now, -, late⟩ := List.countP_pos_iff.mp (Nat.zero_lt_of_lt enough)
      exact (of_decide_eq_true late).trans_lt now.toNat_lt
    have due (event : ReplayEvent) (member : event ∈ front :: rest) :
        (scheduledAt options (first + kScheduleLeadNs) front.tsRecv event).toNat =
          first.toNat + kScheduleLeadNs.toNat +
            (options.offset (event.tsRecv - front.tsRecv)).toNat := by
      have inside := offset_le_span options front rest member
      rw [scheduledAt, UInt64.toNat_add, UInt64.toNat_add, Nat.mod_eq_of_lt (by omega),
        Nat.mod_eq_of_lt (by omega)]
    have soon (event : ReplayEvent) (member : event ∈ front :: rest) :
        (scheduledAt options (first + kScheduleLeadNs) front.tsRecv event).toNat ≤
          first.toNat + span options front rest := by
      have inside := offset_le_span options front rest member
      rw [due event member]
      omega
    obtain ⟨visits, after, returns, dues, spends, left⟩ :=
      replayEvents_returns handler options soon 0 ⟨state, .create 3600000000000 3, .start⟩
        (Nat.le_of_lt enough)
    rw [List.length_cons] at left
    cases after with
    | nil =>
      have none_ : past (first.toNat + span options front rest) [] = 0 := rfl
      omega
    | cons done later =>
      have many : (front :: rest).length = visits.length := by
        simpa using (congrArg List.length dues).symm
      have handled := accountAll_handled handler options 0
        ⟨state, .create 3600000000000 3, .start⟩ ((front :: rest).zip visits)
      rw [List.map_fst_zip many.le] at handled
      refine ⟨first, readings, visits, done, later, rfl, ?_, ?_, spends, fun steady => ?_⟩
      · simp only [replayOpenLoop, bind, StateT.bind, nowNs, Option.bind_some, returns]
        rw [handled]
        rfl
      · rw [dues]
        exact List.map_congr_left due
      · have behind : later <:+ readings := (List.suffix_cons done later).trans spends.suffix
        have inOrder : Steady later :=
          List.Pairwise.sublist ((List.sublist_cons_of_sublist _ behind.sublist)) steady
        have last := past_cons_le (first.toNat + span options front rest) done later
        exact ⟨others.longer (drop_past_suffix behind (by omega)) inOrder, inOrder⟩

theorem replayOpenLoop_lasts (events : List ReplayEvent) {more : List (Nat × Nat)}
    {clock : List UInt64} (steady : Steady clock)
    (lasts : Lasts (needs options events ++ more) clock) :
    ∃ result later, replayOpenLoop handler options events state clock =
        some ((result, events.foldl handler state), later) ∧
      Lasts more later ∧ Steady later := by
  cases events with
  | nil => exact ⟨.start, clock, rfl, lasts, steady⟩
  | cons front rest =>
    obtain ⟨_, _, _, _, later, -, returns, -, -, left⟩ :=
      replayOpenLoop_ends handler options state front rest lasts
    exact ⟨_, later, returns, left steady⟩

/-- A replay measures its events as a queue. On a clock that does not go back and lasts it ends, and
has used up its instants on one visit after the other: each event is due when it was recorded, at the
speed asked for, each latency that is reported runs from then to the reading behind the handler's
return, and none is shorter than with an ideal server that takes as long over each. -/
theorem replay_charges_backlog (front : ReplayEvent) (rest : List ReplayEvent) {clock : List UInt64}
    (steady : Steady clock) (lasts : Lasts (needs options (front :: rest)) clock)
    (fits : rest.length + 1 < 2 ^ 64) :
    ∃ first readings visits done result later,
      clock = first :: readings ∧
      replayOpenLoop handler options (front :: rest) state clock =
        some ((result, (front :: rest).foldl handler state), later) ∧
      visits.map Visit.due = (front :: rest).map (fun event => first.toNat + kScheduleLeadNs.toNat +
        (options.offset (event.tsRecv - front.tsRecv)).toNat) ∧
      Spends options 0 visits readings (done :: later) ∧ Served first.toNat visits ∧
      Reports options visits result ∧ result.wallNs = done - (first + kScheduleLeadNs) ∧
      List.Forall₂ (· ≤ ·) (OneServer.sojourns first.toNat (OneServer.jobs visits))
        (visits.map Visit.sojourn) ∧
      (result.keptPace = true ↔ (options.recordFallingBehind = true →
        ∀ visit ∈ measured options 0 visits, visit.lateness ≤ kDeadlineToleranceNs.toNat)) := by
  obtain ⟨first, readings, visits, done, later, rfl, returns, dues, spends, -⟩ :=
    replayOpenLoop_ends handler options state front rest lasts
  have served := spends.served steady
  have many : (front :: rest).length = visits.length := by
    simpa using (congrArg List.length dues).symm
  have small := spends.lateness_lt
  have bounded : ∀ step ∈ (front :: rest).zip visits, step.2.lateness < 2 ^ 64 :=
    fun step member => small step.2 (List.of_mem_zip member).2
  have measures := accountAll_measures handler options 0
    ⟨state, .create 3600000000000 3, .start⟩ bounded
  rw [List.map_snd_zip many.ge] at measures
  have reports := reports_of_measures measures (by rw [← many]; exact fits)
    (done - (first + kScheduleLeadNs))
  exact ⟨first, readings, visits, done, _, later, rfl, returns, dues, spends, served, reports, rfl,
    OneServer.sojourns_le served (le_refl _), keptPace_iff reports⟩

def twoBooks : List ReplayEvent := [⟨0, bytes "first"⟩, ⟨10, bytes "second"⟩]

def recorded : ReplayOptions := ⟨fun elapsed => elapsed.toUInt64, 0, true⟩

-- The first book takes 500 ns, so that the second is late when its turn comes.
def clockReadings : List UInt64 :=
  [0, 5, 1000000, 1000500, 1000501, 1000502, 1000600, 1000700, 1000800, 1000900]

theorem replay_charges_backlog_late :
    ∃ first readings visits done result later,
      clockReadings = first :: readings ∧
      replayOpenLoop (fun count _ => count + 1) recorded twoBooks 0 clockReadings =
        some ((result, twoBooks.foldl (fun count _ => count + 1) 0), later) ∧
      visits.map Visit.due = twoBooks.map (fun event => first.toNat + kScheduleLeadNs.toNat +
        (recorded.offset (event.tsRecv - 0)).toNat) ∧
      Spends recorded 0 visits readings (done :: later) ∧ Served first.toNat visits ∧
      Reports recorded visits result ∧ result.wallNs = done - (first + kScheduleLeadNs) ∧
      List.Forall₂ (· ≤ ·) (OneServer.sojourns first.toNat (OneServer.jobs visits))
        (visits.map Visit.sojourn) ∧
      (result.keptPace = true ↔ (recorded.recordFallingBehind = true →
        ∀ visit ∈ measured recorded 0 visits, visit.lateness ≤ kDeadlineToleranceNs.toNat)) :=
  replay_charges_backlog (fun count _ => count + 1) recorded 0 ⟨0, bytes "first"⟩
    [⟨10, bytes "second"⟩] (by unfold Steady; decide) ⟨by decide, trivial⟩ (by decide)

end Replay

end Replay

end Crossbook
