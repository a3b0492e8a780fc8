import Crossbook.Replay.Queueing
import Crossbook.Replay.Tiling

set_option autoImplicit false

namespace Crossbook

namespace Replay

/-- A speed multiplier, as floating point leaves what follows from it: how it compresses the recorded
time, and how much of the capture the budget of a rung covers. -/
structure Speed where
  positive : Bool
  offset : Timestamp → UInt64
  budget : Option Budget

structure SweepOptions where
  speeds : List Speed
  /-- The ladder from 1 to 1000 that is run when none is asked for. -/
  defaults : List Speed
  minSamples : UInt64
  p99BoundNs : UInt64
  warmupEvents : Nat
  stopLatenessNs : UInt64

def SweepOptions.ladder (options : SweepOptions) : List Speed :=
  if options.speeds.isEmpty then options.defaults else options.speeds

structure SweepPoint where
  loops : UInt64
  result : ReplayResult
  deriving DecidableEq, Repr

def SweepPoint.passed (point : SweepPoint) (p99BoundNs : UInt64) : Bool :=
  decide (0 < point.result.events) && point.result.keptPace &&
    decide (point.result.latency.p99 ≤ p99BoundNs)

structure SweepResult where
  points : List SweepPoint
  knee : Option Nat
  stoppedEarly : Bool
  p99BoundNs : UInt64
  deriving DecidableEq, Repr

-- The scan ends at the first rung that does not pass.
def kneeFrom (p99BoundNs : UInt64) : Nat → Option Nat → List SweepPoint → Option Nat
  | _, knee, [] => knee
  | i, knee, point :: rest =>
    if point.passed p99BoundNs then kneeFrom p99BoundNs (i + 1) (some i) rest else knee

variable {σ : Type}

section Ladder

variable (handler : σ → ReplayEvent → σ) (options : SweepOptions) (events : List ReplayEvent)
  (stride : Timestamp)

def SweepOptions.wanted (options : SweepOptions) : UInt64 :=
  options.minSamples + UInt64.ofNat options.warmupEvents

def rungEvents (speed : Speed) : List ReplayEvent :=
  sweepTiled events stride options.wanted speed.budget

-- Warm-up never takes more than a quarter of a run.
def rungOptions (speed : Speed) : ReplayOptions where
  offset := speed.offset
  warmupEvents := min options.warmupEvents ((rungEvents options events stride speed).length / 4)
  recordFallingBehind := true

def sweepRung (speed : Speed) (state : σ) : Clocked (SweepPoint × σ) := do
  let replayed ← replayOpenLoop handler (rungOptions options events stride speed)
    (rungEvents options events stride speed) state
  return (⟨sweepLoops (UInt64.ofNat events.length) options.wanted speed.budget, replayed.1⟩,
    replayed.2)

def drowning (point : SweepPoint) : Bool :=
  decide (point.result.maxLateness > options.stopLatenessNs)

def sweepRungs : List Speed → σ → Clocked ((List SweepPoint × Bool) × σ)
  | [], state => return (([], false), state)
  | speed :: rest, state =>
    if speed.positive then do
      let rung ← sweepRung handler options events stride speed state
      if drowning options rung.1 then return (([rung.1], true), rung.2)
      else
        let later ← sweepRungs rest rung.2
        return ((rung.1 :: later.1.1, later.1.2), later.2)
    else sweepRungs rest state

def replaySweep (state : σ) : Clocked (SweepResult × σ) :=
  match sweepStride events with
  | none => return (⟨[], none, false, options.p99BoundNs⟩, state)
  | some stride => do
    let ladder ← sweepRungs handler options events stride options.ladder state
    return (⟨ladder.1.1, kneeFrom options.p99BoundNs 0 none ladder.1.1, ladder.1.2,
      options.p99BoundNs⟩, ladder.2)

end Ladder

section Returned

theorem bind_eq_some {α β : Type} {first : Clocked α} {next : α → Clocked β}
    {readings later : List UInt64} {b : β} :
    (first >>= next) readings = some (b, later) ↔
      ∃ a between, first readings = some (a, between) ∧ next a between = some (b, later) := by
  simp only [bind, StateT.bind, Option.bind_eq_some_iff, Prod.exists]

theorem pure_eq_some {α : Type} {a b : α} {readings later : List UInt64} :
    (pure a : Clocked α) readings = some (b, later) ↔ a = b ∧ readings = later := by
  simp only [pure, StateT.pure, Option.some.injEq, Prod.mk.injEq]

variable {handler : σ → ReplayEvent → σ} {options : ReplayOptions} {run after : OpenLoop σ}
  {readings later : List UInt64}

def OpenLoop.counted (run : OpenLoop σ) : σ × UInt64 × UInt64 :=
  (run.handled, run.result.events, run.result.skipped)

theorem counted_late (run : OpenLoop σ) (lateness : UInt64) :
    (run.late lateness).counted = run.counted := by
  unfold OpenLoop.late
  split <;> rfl

theorem counted_pace {scheduled : UInt64} {i : Nat}
    (paced : pace options scheduled i run readings = some (after, later)) :
    after.counted = run.counted := by
  obtain ⟨beforeWait, _, -, rest⟩ := bind_eq_some.mp paced
  split at rest
  · obtain ⟨_, _, -, rest⟩ := bind_eq_some.mp rest
    rw [← (pure_eq_some.mp rest).1]
  · split at rest
    · rw [← (pure_eq_some.mp rest).1, counted_late]
    · rw [← (pure_eq_some.mp rest).1]

theorem work_eq_some {event : ReplayEvent}
    (worked : run.work handler event readings = some (after, later)) :
    after = run.handle handler event := by
  cases readings with
  | nil => exact absurd worked (by simp [OpenLoop.work])
  | cons returned rest => exact (Prod.mk.inj (Option.some.inj worked)).1.symm

theorem counted_replayEvent {scheduled : UInt64} {i : Nat} {event : ReplayEvent}
    (replayed : replayEvent handler options scheduled i event run readings = some (after, later)) :
    after.counted =
      if i < options.warmupEvents then
        (handler run.handled event, run.result.events, run.result.skipped + 1)
      else (handler run.handled event, run.result.events + 1, run.result.skipped) := by
  obtain ⟨paced, _, paces, rest⟩ := bind_eq_some.mp replayed
  obtain ⟨_, _, works, rest⟩ := bind_eq_some.mp rest
  obtain rfl := work_eq_some works
  have same := counted_pace paces
  simp only [OpenLoop.counted, Prod.mk.injEq] at same
  obtain ⟨handled, events, skipped⟩ := same
  split at rest
  next warming =>
    rw [if_pos warming, ← (pure_eq_some.mp rest).1, ← handled, ← events, ← skipped]
    rfl
  next warm =>
    obtain ⟨completed, _, -, rest⟩ := bind_eq_some.mp rest
    rw [if_neg warm, ← (pure_eq_some.mp rest).1, ← handled, ← events, ← skipped]
    rfl

theorem counted_replayEvents {schedule : ReplayEvent → UInt64} {events : List ReplayEvent} {i : Nat}
    (replayed : replayEvents handler options schedule i events run readings = some (after, later)) :
    after.counted = (events.foldl handler run.handled,
      run.result.events + UInt64.ofNat (events.length - (options.warmupEvents - i)),
      run.result.skipped + UInt64.ofNat (min (options.warmupEvents - i) events.length)) := by
  induction events generalizing i run readings with
  | nil =>
    rw [← (pure_eq_some.mp replayed).1]
    simp [OpenLoop.counted]
  | cons event rest ih =>
    obtain ⟨next, _, first, others⟩ := bind_eq_some.mp replayed
    have here := counted_replayEvent first
    rw [ih others, List.foldl_cons, List.length_cons]
    split at here
    next warming =>
      simp only [OpenLoop.counted, Prod.mk.injEq] at here
      obtain ⟨handled, events, skipped⟩ := here
      have measured : rest.length + 1 - (options.warmupEvents - i) =
          rest.length - (options.warmupEvents - (i + 1)) := by omega
      have skips : min (options.warmupEvents - i) (rest.length + 1) =
          1 + min (options.warmupEvents - (i + 1)) rest.length := by omega
      rw [handled, events, skipped, measured, skips, UInt64.ofNat_add, ← UInt64.add_assoc]
      rfl
    next warm =>
      simp only [OpenLoop.counted, Prod.mk.injEq] at here
      obtain ⟨handled, events, skipped⟩ := here
      have measured : rest.length + 1 - (options.warmupEvents - i) =
          1 + (rest.length - (options.warmupEvents - (i + 1))) := by omega
      have skips : min (options.warmupEvents - i) (rest.length + 1) =
          min (options.warmupEvents - (i + 1)) rest.length := by omega
      rw [handled, events, skipped, measured, skips, UInt64.ofNat_add, ← UInt64.add_assoc]
      rfl

theorem replayOpenLoop_counts {events : List ReplayEvent} {state : σ} {result : ReplayResult}
    {last : σ} (replayed : replayOpenLoop handler options events state readings =
      some ((result, last), later)) :
    last = events.foldl handler state ∧
      result.events = UInt64.ofNat (events.length - options.warmupEvents) ∧
      result.skipped = UInt64.ofNat (min options.warmupEvents events.length) := by
  cases events with
  | nil =>
    obtain ⟨same, -⟩ := pure_eq_some.mp replayed
    obtain ⟨rfl, rfl⟩ := Prod.mk.inj same
    simp [ReplayResult.start]
  | cons front rest =>
    obtain ⟨now, _, -, timed⟩ := bind_eq_some.mp replayed
    obtain ⟨run, _, runs, ended⟩ := bind_eq_some.mp timed
    obtain ⟨done, _, -, returned⟩ := bind_eq_some.mp ended
    obtain ⟨same, -⟩ := pure_eq_some.mp returned
    obtain ⟨rfl, rfl⟩ := Prod.mk.inj same
    have counted := counted_replayEvents runs
    simp only [OpenLoop.counted, ReplayResult.start, Prod.mk.injEq, UInt64.zero_add,
      Nat.sub_zero] at counted
    exact counted

end Returned

section Rungs

variable {handler : σ → ReplayEvent → σ} {options : SweepOptions} {events : List ReplayEvent}
  {stride : Timestamp} {readings later : List UInt64}

structure Rung (options : SweepOptions) (events : List ReplayEvent) (stride : Timestamp)
    (speed : Speed) (point : SweepPoint) : Prop where
  copies : point.loops = sweepLoops (UInt64.ofNat events.length) options.wanted speed.budget
  measured : point.result.events =
    UInt64.ofNat ((rungEvents options events stride speed).length -
      (rungOptions options events stride speed).warmupEvents)
  skipped : point.result.skipped =
    UInt64.ofNat (rungOptions options events stride speed).warmupEvents

theorem sweepRung_ran {speed : Speed} {state last : σ} {point : SweepPoint}
    (ran : sweepRung handler options events stride speed state readings =
      some ((point, last), later)) :
    last = (rungEvents options events stride speed).foldl handler state ∧
      Rung options events stride speed point := by
  obtain ⟨replayed, _, replays, returned⟩ := bind_eq_some.mp ran
  obtain ⟨same, -⟩ := pure_eq_some.mp returned
  obtain ⟨rfl, rfl⟩ := Prod.mk.inj same
  obtain ⟨handled, measured, skipped⟩ := replayOpenLoop_counts replays
  have few : (rungOptions options events stride speed).warmupEvents ≤
      (rungEvents options events stride speed).length :=
    (min_le_right _ _).trans (Nat.div_le_self _ _)
  exact ⟨handled, rfl, measured, by rw [skipped, min_eq_left few]⟩

/-- The rungs of a ladder that have run: the first ones, up to the first that drowned. -/
structure Ran (handler : σ → ReplayEvent → σ) (options : SweepOptions) (events : List ReplayEvent)
    (stride : Timestamp) (speeds : List Speed) (state : σ) (points : List SweepPoint)
    (stopped : Bool) (last : σ) (rungs : List Speed) : Prop where
  ladder : rungs <+: speeds.filter Speed.positive
  complete : stopped = false → rungs = speeds.filter Speed.positive
  handled : last = (rungs.flatMap (rungEvents options events stride)).foldl handler state
  rung : List.Forall₂ (Rung options events stride) rungs points
  afloat : ∀ point ∈ points.dropLast, drowning options point = false
  drowned : stopped = points.getLast?.any (drowning options)

theorem sweepRungs_ran {speeds : List Speed} {state last : σ} {points : List SweepPoint}
    {stopped : Bool}
    (ran : sweepRungs handler options events stride speeds state readings =
      some (((points, stopped), last), later)) :
    ∃ rungs, Ran handler options events stride speeds state points stopped last rungs := by
  induction speeds generalizing state readings later points stopped last with
  | nil =>
    obtain ⟨same, -⟩ := pure_eq_some.mp ran
    obtain ⟨inner, rfl⟩ := Prod.mk.inj same
    obtain ⟨rfl, rfl⟩ := Prod.mk.inj inner
    exact ⟨[], List.prefix_rfl, fun _ => rfl, rfl, .nil, by simp, rfl⟩
  | cons speed rest ih =>
    rw [sweepRungs] at ran
    split at ran
    next positive =>
      have front : (speed :: rest).filter Speed.positive = speed :: rest.filter Speed.positive :=
        List.filter_cons_of_pos positive
      obtain ⟨rung, _, runs, more⟩ := bind_eq_some.mp ran
      obtain ⟨handled, measured⟩ := sweepRung_ran runs
      split at more
      next drowned =>
        obtain ⟨same, -⟩ := pure_eq_some.mp more
        obtain ⟨inner, rfl⟩ := Prod.mk.inj same
        obtain ⟨rfl, rfl⟩ := Prod.mk.inj inner
        refine ⟨[speed], ?_, by simp, by simpa using handled, .cons measured .nil, by simp,
          by simpa using drowned.symm⟩
        rw [front]
        exact List.cons_prefix_cons.mpr ⟨rfl, List.nil_prefix⟩
      next afloat =>
        obtain ⟨upper, _, climbs, returned⟩ := bind_eq_some.mp more
        obtain ⟨same, -⟩ := pure_eq_some.mp returned
        obtain ⟨inner, rfl⟩ := Prod.mk.inj same
        obtain ⟨rfl, rfl⟩ := Prod.mk.inj inner
        obtain ⟨rungs, up⟩ := ih climbs
        have here : drowning options rung.1 = false := by simpa using afloat
        refine ⟨speed :: rungs, ?_, ?_, ?_, .cons measured up.rung, ?_, ?_⟩
        · rw [front]
          exact List.cons_prefix_cons.mpr ⟨rfl, up.ladder⟩
        · intro unstopped
          rw [front, up.complete unstopped]
        · rw [List.flatMap_cons, List.foldl_append, ← handled, up.handled]
        · cases above : upper.1.1 with
          | nil => simp
          | cons second others =>
            rw [List.dropLast_cons_cons]
            exact List.forall_mem_cons.mpr ⟨here, above ▸ up.afloat⟩
        · have last := up.drowned
          cases above : upper.1.1 with
          | nil =>
            rw [above] at last
            simpa [here] using last
          | cons second others =>
            rw [above] at last
            simpa using last
    next skipped =>
      have same : (speed :: rest).filter Speed.positive = rest.filter Speed.positive :=
        List.filter_cons_of_neg skipped
      obtain ⟨rungs, up⟩ := ih ran
      exact ⟨rungs, { up with ladder := same ▸ up.ladder, complete := same ▸ up.complete }⟩

def sweepNeeds (options : SweepOptions) (events : List ReplayEvent) (stride : Timestamp)
    (speeds : List Speed) : List (Nat × Nat) :=
  (speeds.filter Speed.positive).flatMap fun speed =>
    needs (rungOptions options events stride speed) (rungEvents options events stride speed)

theorem sweepRungs_lasts (speeds : List Speed) (state : σ) {clock : List UInt64}
    (steady : Steady clock) (lasts : Lasts (sweepNeeds options events stride speeds) clock) :
    (sweepRungs handler options events stride speeds state clock).isSome := by
  induction speeds generalizing state clock with
  | nil => rfl
  | cons speed rest ih =>
    rw [sweepRungs]
    split
    next positive =>
      rw [sweepNeeds, List.filter_cons_of_pos positive, List.flatMap_cons] at lasts
      obtain ⟨result, between, replays, more, inOrder⟩ :=
        replayOpenLoop_lasts handler (rungOptions options events stride speed) state
          (rungEvents options events stride speed) steady lasts
      have above := ih ((rungEvents options events stride speed).foldl handler state) inOrder more
      obtain ⟨upper, climbs⟩ := Option.isSome_iff_exists.mp above
      simp only [sweepRung, bind, StateT.bind, replays, Option.bind_some, pure, StateT.pure]
      split
      next => rfl
      next =>
        rw [StateT.bind, climbs]
        rfl
    next skipped =>
      rw [sweepNeeds, List.filter_cons_of_neg skipped] at lasts
      exact ih state steady lasts

theorem replaySweep_lasts (stepped : sweepStride events = some stride) (state : σ)
    {clock : List UInt64} (steady : Steady clock)
    (lasts : Lasts (sweepNeeds options events stride options.ladder) clock) :
    (replaySweep handler options events state clock).isSome := by
  have ends := @sweepRungs_lasts _ handler options events stride options.ladder state _ steady lasts
  obtain ⟨ladder, climbs⟩ := Option.isSome_iff_exists.mp ends
  simp only [replaySweep, stepped, bind, StateT.bind, climbs, Option.bind_some, pure, StateT.pure,
    Option.isSome_some]

theorem kneeFrom_eq (p99BoundNs : UInt64) (i : Nat) (knee : Option Nat) (points : List SweepPoint) :
    kneeFrom p99BoundNs i knee points =
      if points.takeWhile (·.passed p99BoundNs) = [] then knee
      else some (i + (points.takeWhile (·.passed p99BoundNs)).length - 1) := by
  induction points generalizing i knee with
  | nil => rfl
  | cons point rest ih =>
    cases passed : point.passed p99BoundNs with
    | false => simp [kneeFrom, passed]
    | true =>
      have longer : (point :: rest).takeWhile (·.passed p99BoundNs) =
          point :: rest.takeWhile (·.passed p99BoundNs) := List.takeWhile_cons_of_pos passed
      rw [kneeFrom, if_pos passed, ih, longer, if_neg (List.cons_ne_nil _ _), List.length_cons]
      split
      next none_ => simp [none_]
      next => exact congrArg some (by omega)

theorem sweepLoops_mul_lt (wanted : UInt64) (budget : Option Budget) {n : Nat} (few : n < 2 ^ 64) :
    (sweepLoops (UInt64.ofNat n) wanted budget).toNat * n < 2 ^ 64 := by
  have perLoop : (UInt64.ofNat n).toNat = n := UInt64.toNat_ofNat_of_lt' few
  let whole : UInt64 :=
    if (wanted + UInt64.ofNat n - 1) / UInt64.ofNat n = 0 then 1
    else (wanted + UInt64.ofNat n - 1) / UInt64.ofNat n
  have fits : whole.toNat * n < 2 ^ 64 := by
    change (if _ then (1 : UInt64) else _).toNat * n < 2 ^ 64
    split
    next => rwa [UInt64.toNat_one, Nat.one_mul]
    next =>
      rw [UInt64.toNat_div, perLoop]
      exact (Nat.div_mul_le_self _ _).trans_lt (UInt64.toNat_lt _)
  have within : (sweepLoops (UInt64.ofNat n) wanted budget).toNat ≤ whole.toNat := by
    cases budget with
    | none => exact le_refl _
    | some budget =>
      change (min whole (budget.strides + 1)).toNat ≤ whole.toNat
      rw [Word.toNat_min]
      exact min_le_left _ _
  exact (Nat.mul_le_mul_right n within).trans_lt fits

theorem length_tileCapture (events : List ReplayEvent) (loops : UInt64) (stride : Timestamp) :
    (tileCapture events loops stride).length = loops.toNat * events.length := by
  rw [← List.length_map ReplayEvent.frame, frames_tileCapture, List.length_flatten,
    List.map_replicate, List.sum_replicate, List.length_map, smul_eq_mul]

theorem length_rungEvents_lt (options : SweepOptions) (stride : Timestamp) (speed : Speed)
    (few : events.length < 2 ^ 64) : (rungEvents options events stride speed).length < 2 ^ 64 := by
  have fits := sweepLoops_mul_lt options.wanted speed.budget few
  rw [← length_tileCapture events _ stride] at fits
  unfold rungEvents sweepTiled
  dsimp only
  split
  next => exact fits
  next =>
    split
    next => exact fits
    next => exact (List.length_take_le' _ _).trans_lt fits

theorem Rung.mostly {speed : Speed} {point : SweepPoint}
    (rung : Rung options events stride speed point)
    (short : (rungEvents options events stride speed).length < 2 ^ 64) :
    let replayed := (rungEvents options events stride speed).length
    point.result.skipped.toNat + point.result.events.toNat = replayed ∧
      3 * replayed ≤ 4 * point.result.events.toNat := by
  have quarter : (rungOptions options events stride speed).warmupEvents ≤
      (rungEvents options events stride speed).length / 4 := min_le_right _ _
  dsimp only
  rw [rung.measured, rung.skipped, UInt64.toNat_ofNat_of_lt' (by change _ < 2 ^ 64; omega),
    UInt64.toNat_ofNat_of_lt' (by change _ < 2 ^ 64; omega)]
  omega

end Rungs

/-- What a sweep has done when it ends: its rungs are the first of the positive speeds, as many as it
has points, and all of them unless the last one drowned; every rung measures all that it replays but a
warm-up of at most a quarter, on a handler that sees every event; and the knee is the last rung that
passes after none that does not. -/
structure Climbed (handler : σ → ReplayEvent → σ) (options : SweepOptions)
    (events : List ReplayEvent) (stride : Timestamp) (state : σ) (sweep : SweepResult) (last : σ)
    (rungs : List Speed) : Prop where
  ladder : rungs <+: options.ladder.filter Speed.positive
  complete : sweep.stoppedEarly = false → rungs = options.ladder.filter Speed.positive
  drowned : sweep.stoppedEarly = sweep.points.getLast?.any (drowning options)
  afloat : ∀ point ∈ sweep.points.dropLast, drowning options point = false
  handled : last = (rungs.flatMap (rungEvents options events stride)).foldl handler state
  counts : List.Forall₂ (fun speed point =>
    let replayed := (rungEvents options events stride speed).length
    point.result.skipped.toNat + point.result.events.toNat = replayed ∧
      3 * replayed ≤ 4 * point.result.events.toNat) rungs sweep.points
  knee : sweep.knee =
    let passing := sweep.points.takeWhile (·.passed options.p99BoundNs)
    if passing = [] then none else some (passing.length - 1)

theorem replaySweep_climbed {handler : σ → ReplayEvent → σ} {options : SweepOptions}
    {events : List ReplayEvent} {stride : Timestamp} (stepped : sweepStride events = some stride)
    (few : events.length < 2 ^ 64) {state last : σ} {sweep : SweepResult}
    {clock later : List UInt64}
    (swept : replaySweep handler options events state clock = some ((sweep, last), later)) :
    ∃ rungs, Climbed handler options events stride state sweep last rungs := by
  rw [replaySweep, stepped] at swept
  obtain ⟨ladder, _, climbs, returned⟩ := bind_eq_some.mp swept
  obtain ⟨same, -⟩ := pure_eq_some.mp returned
  obtain ⟨rfl, rfl⟩ := Prod.mk.inj same
  obtain ⟨rungs, ran⟩ := sweepRungs_ran climbs
  refine ⟨rungs, ran.ladder, ran.complete, ran.drowned, ran.afloat, ran.handled, ?_, ?_⟩
  · exact ran.rung.imp fun speed point rung =>
      rung.mostly (length_rungEvents_lt options stride speed few)
  · dsimp only
    rw [kneeFrom_eq, Nat.zero_add]

section Once

def asRecorded : SweepOptions where
  speeds := [⟨false, fun _ => 0, none⟩, ⟨true, fun elapsed => elapsed.toUInt64, none⟩]
  defaults := []
  minSamples := 2
  p99BoundNs := 100000
  warmupEvents := 0
  stopLatenessNs := 100000000

def sweepClock : List UInt64 := (List.range 20).map fun i => UInt64.ofNat (100 * i + 1000000 * min i 1)

end Once

end Replay

end Crossbook
