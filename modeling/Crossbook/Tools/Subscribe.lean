import Crossbook.Json.Tree
import Crossbook.Tools.Reproduce

set_option autoImplicit false

namespace Crossbook

namespace Tools

open Json

theorem printI32_number (value : Int32) : NumberText (printI32 value) := by
  unfold printI32 CaptureWriter.printI64
  split
  · exact numberText_integer (.inr rfl) (integerText_print _)
  · exact numberText_integer (.inl rfl) (integerText_print _)

def subscription (symbol : Bytes) (depth : Int32) (subscribe : Bool) : Json.Tree :=
  .object
    [(bytes "method", .string (bytes (if subscribe then "subscribe" else "unsubscribe"))),
      (bytes "params", .object
        [(bytes "channel", .string (bytes "book")), (bytes "symbol", .array [.string symbol]),
          (bytes "depth", .number (printI32 depth))])]

theorem krakenSubscribe_eq (symbol : Bytes) (depth : Int32) (subscribe : Bool) :
    krakenSubscribe symbol depth subscribe =
      ascii '{' :: (fieldText (bytes "method") (ascii '"' ::
          (bytes (if subscribe then "subscribe" else "unsubscribe") ++ [ascii '"'])) ++
        ascii ',' :: fieldText (bytes "params") (ascii '{' ::
          (fieldText (bytes "channel") (ascii '"' :: (bytes "book" ++ [ascii '"'])) ++
            ascii ',' :: (fieldText (bytes "symbol")
                (ascii '[' :: (ascii '"' :: (symbol ++ [ascii '"']) ++ [ascii ']'])) ++
              ascii ',' :: fieldText (bytes "depth") (printI32 depth)) ++ [ascii '}'])) ++
        [ascii '}']) := by
  have front : bytes "\x7b\"method\":\"" =
      ascii '{' :: ascii '"' :: (bytes "method" ++ [ascii '"', ascii ':', ascii '"']) := by
    decide +kernel
  have middle : bytes "\",\"params\":\x7b\"channel\":\"book\",\"symbol\":[\"" =
      ascii '"' :: ascii ',' :: ascii '"' :: (bytes "params" ++ ascii '"' :: ascii ':' ::
        ascii '{' :: ascii '"' :: (bytes "channel" ++ ascii '"' :: ascii ':' :: ascii '"' ::
          (bytes "book" ++ ascii '"' :: ascii ',' :: ascii '"' :: (bytes "symbol" ++
            [ascii '"', ascii ':', ascii '[', ascii '"'])))) := by
    decide +kernel
  have depth_ : bytes "\"],\"depth\":" =
      ascii '"' :: ascii ']' :: ascii ',' :: ascii '"' :: (bytes "depth" ++
        [ascii '"', ascii ':']) := by
    decide +kernel
  have last : bytes "\x7d\x7d" = [ascii '}', ascii '}'] := by decide +kernel
  rw [krakenSubscribe, front, middle, depth_, last]
  simp only [fieldText, List.append_assoc, List.cons_append, List.nil_append]

theorem readDocument_subscribe {symbol : Bytes}
    (plain : ∀ c ∈ symbol, c ≠ ascii '"' ∧ c ≠ ascii '\\') (depth : Int32) (subscribe : Bool) :
    readDocument (krakenSubscribe symbol depth subscribe) =
      some (subscription symbol depth subscribe) := by
  have word (text : Bytes) (letters : ∀ c ∈ text, c ≠ ascii '"' ∧ c ≠ ascii '\\') (levels : Nat) :
      Denotes levels (ascii '"' :: (text ++ [ascii '"'])) (.string text) :=
    denotes_string levels (stringItems_plain letters)
  have key (text : Bytes) (letters : ∀ c ∈ text, c ≠ ascii '"' ∧ c ≠ ascii '\\') :
      StringItems text := stringItems_plain letters
  have elements : Denotes 30 (ascii '[' :: (ascii '"' :: (symbol ++ [ascii '"']) ++ [ascii ']']))
      (.array [.string symbol]) := denotes_array (listed_one (word symbol plain 29))
  have params := denotes_object (listed_more
    (fieldText_means (key (bytes "channel") (by decide +kernel))
      (word (bytes "book") (by decide +kernel) 30))
    (listed_more (fieldText_means (key (bytes "symbol") (by decide +kernel)) elements)
      (listed_one (fieldText_means (key (bytes "depth") (by decide +kernel))
        (denotes_number 30 (printI32_number depth))))))
  have method := word (bytes (if subscribe then "subscribe" else "unsubscribe"))
    (by cases subscribe <;> decide +kernel) 31
  have whole : Denotes kMaxDepth (krakenSubscribe symbol depth subscribe)
      (subscription symbol depth subscribe) := by
    rw [krakenSubscribe_eq]
    exact denotes_object (listed_more
      (fieldText_means (key (bytes "method") (by decide +kernel)) method)
      (listed_one (fieldText_means (key (bytes "params") (by decide +kernel)) params)))
  exact readDocument_denoted whole

section Sent

variable {S : Type} [SideImpl S] [LawfulSideImpl S]

def resubscription (symbol : Bytes) (depth : Int32) (answer : FeedStatus) : List Bytes :=
  if answer = .needsSnapshot then
    [krakenSubscribe symbol depth false, krakenSubscribe symbol depth true]
  else []

namespace Live

theorem messages_hear {frames : List CapturedFrame} {live after : Live S}
    (ran : messages frames live = some after) :
    ∃ writer, after = ((frames.map CapturedFrame.payload).foldl hear live).withWriter writer := by
  induction frames generalizing live with
  | nil => exact ⟨live.writer, (Option.some.inj ran).symm⟩
  | cons frame rest ih =>
    obtain ⟨next, taken, later⟩ := Option.bind_eq_some_iff.mp ran
    obtain ⟨captured, wrote, rfl⟩ := Option.map_eq_some_iff.mp taken
    have sameBut : ∃ writer, captured = live.withWriter writer := by
      unfold capture at wrote
      split at wrote
      · dsimp only at wrote
        split at wrote
        · exact ⟨_, (Option.some.inj wrote).symm⟩
        · contradiction
      · exact ⟨live.writer, (Option.some.inj wrote).symm⟩
    obtain ⟨writer, rfl⟩ := sameBut
    obtain ⟨last, rfl⟩ := ih later
    rw [hear_withWriter, foldl_hear_withWriter]
    exact ⟨last, rfl⟩

theorem opening_keeps {options opened : Options} {frame : Bytes}
    (found : opening options frame = some opened) :
    opened.symbol = options.symbol ∧ opened.depth = options.depth := by
  unfold opening at found
  split at found
  · split at found
    · obtain ⟨scales, -, rfl⟩ := Option.map_eq_some_iff.mp found
      exact ⟨rfl, rfl⟩
    · obtain rfl := Option.some.inj found
      exact ⟨rfl, rfl⟩
  · contradiction

theorem feedFrame_sent {live : Live S} {feed : Feed S} (held : live.feed = some feed)
    (frame : Bytes) :
    (live.feedFrame frame).options = live.options ∧
      (live.feedFrame frame).feed = some (feed.handle frame).1 ∧
      (live.feedFrame frame).sent = live.sent ++
        resubscription live.options.symbol live.options.depth (feed.handle frame).2 := by
  simp only [feedFrame, held, resubscription]
  split
  · exact ⟨rfl, rfl, rfl⟩
  · exact ⟨rfl, rfl, (List.append_nil _).symm⟩

theorem foldl_hear_sent {live : Live S} {feed : Feed S} (held : live.feed = some feed)
    (frames : List Bytes) :
    (frames.foldl hear live).sent = live.sent ++
      (Run.respond Feed.handle feed frames).2.flatMap
        (resubscription live.options.symbol live.options.depth) := by
  induction frames generalizing live feed with
  | nil => simp [Run.respond]
  | cons frame rest ih =>
    have heard : live.hear frame = live.feedFrame frame := by simp only [hear, openFeed, held]
    obtain ⟨options, later, sent⟩ := feedFrame_sent held frame
    rw [List.foldl_cons, heard, ih later, sent, options]
    simp only [Run.respond, List.flatMap_cons, List.append_assoc]

theorem foldl_hear_waiting {live : Live S} (waiting : live.feed = none) (frames : List Bytes) :
    ∃ spec heard, heard <:+ frames ∧
      let ran := Run.respond Feed.handle (krakenFeed spec live.options.size : Feed S) heard
      (frames.foldl hear live).feed = (if heard = [] then none else some ran.1) ∧
      (frames.foldl hear live).sent = live.sent ++
        ran.2.flatMap (resubscription live.options.symbol live.options.depth) := by
  induction frames with
  | nil => exact ⟨live.options.spec, [], List.suffix_rfl, waiting, by simp [Run.respond]⟩
  | cons frame rest ih =>
    cases found : opening live.options frame with
    | none =>
      obtain ⟨spec, heard, behind, feed, sent⟩ := ih
      rw [List.foldl_cons, hear_closed waiting found]
      exact ⟨spec, heard, behind.trans (List.suffix_cons _ _), feed, sent⟩
    | some options =>
      obtain ⟨symbol, depth⟩ := opening_keeps found
      have opened : live.openFeed frame =
          { live with options := options, feed := some (krakenFeed options.spec options.size) } := by
        simp only [openFeed, waiting, found]
      have held : (live.openFeed frame).feed = some (krakenFeed options.spec options.size) := by
        rw [opened]
      have again : (live.openFeed frame).hear frame = live.hear frame := by
        simp only [hear]
        congr 1
        rw [openFeed, held]
      have start : (frame :: rest).foldl hear live =
          (frame :: rest).foldl hear (live.openFeed frame) := by
        rw [List.foldl_cons, List.foldl_cons, again]
      have size : live.options.size = options.size := by rw [Options.size, Options.size, depth]
      rw [size]
      refine ⟨options.spec, frame :: rest, List.suffix_rfl, ?_, ?_⟩
      · rw [start, if_neg (List.cons_ne_nil _ _)]
        exact foldl_hear_feeding held _
      · rw [start, foldl_hear_sent held, opened, symbol, depth]

end Live

def Unescaped (symbol : Bytes) : Prop := ∀ c ∈ symbol, c ≠ ascii '"' ∧ c ≠ ascii '\\'

/-- The texts a live run sends are its subscription and then, for every frame that is answered with
the need of a snapshot, the unsubscription and the subscription; and for a plain symbol each of them
reads back as the request it is. -/
theorem live_texts {options : Options} {startUnixNs : Option Int64}
    {before after : Live S} (started : Live.start options startUnixNs = some before)
    {frames : List CapturedFrame} (ran : Live.messages frames before = some after) :
    ∃ spec heard, heard <:+ frames.map CapturedFrame.payload ∧
      let ran := Run.respond Feed.handle (krakenFeed spec options.size : Feed S) heard
      after.feed = (if heard = [] then none else some ran.1) ∧
      after.sent = krakenSubscribe options.symbol options.depth true ::
        ran.2.flatMap (resubscription options.symbol options.depth) ∧
      ∀ text ∈ after.sent, ∃ subscribe,
        text = krakenSubscribe options.symbol options.depth subscribe ∧
        (Unescaped options.symbol → Json.readDocument text =
          some (subscription options.symbol options.depth subscribe)) := by
  have entered : ∃ writer, before = Live.subscribed options writer := by
    unfold Live.start at started
    split at started
    · exact ⟨_, (Option.some.inj started).symm⟩
    · dsimp only at started
      split at started
      · exact ⟨_, (Option.some.inj started).symm⟩
      · contradiction
  obtain ⟨writer, rfl⟩ := entered
  obtain ⟨last, rfl⟩ := Live.messages_hear ran
  have waiting : (Live.subscribed options writer : Live S).feed = none := rfl
  obtain ⟨spec, heard, behind, feed, sent⟩ :=
    Live.foldl_hear_waiting waiting (frames.map CapturedFrame.payload)
  refine ⟨spec, heard, behind, feed, sent, ?_⟩
  intro text member
  have spoken (subscribe : Bool) (plain : Unescaped options.symbol) :=
    readDocument_subscribe plain options.depth subscribe
  rcases List.mem_cons.mp (sent ▸ member) with rfl | member
  · exact ⟨true, rfl, spoken true⟩
  · obtain ⟨answer, -, inside⟩ := List.mem_flatMap.mp member
    unfold resubscription at inside
    split at inside
    · rcases List.mem_pair.mp inside with rfl | rfl
      · exact ⟨false, rfl, spoken false⟩
      · exact ⟨true, rfl, spoken true⟩
    · contradiction

theorem live_texts_acknowledged :
    ∃ after, Live.messages [acknowledgement, firstSnapshot] asked = some after ∧
      ∃ spec heard, heard <:+ [acknowledgement, firstSnapshot].map CapturedFrame.payload ∧
        let ran := Run.respond Feed.handle (krakenFeed spec askOne.size : Feed MapSide) heard
        after.feed = (if heard = [] then none else some ran.1) ∧
        after.sent = krakenSubscribe askOne.symbol askOne.depth true ::
          ran.2.flatMap (resubscription askOne.symbol askOne.depth) ∧
        ∀ text ∈ after.sent, ∃ subscribe,
          text = krakenSubscribe askOne.symbol askOne.depth subscribe ∧
          (Unescaped askOne.symbol → Json.readDocument text =
            some (subscription askOne.symbol askOne.depth subscribe)) :=
  ⟨_, Live.messages_open _ _ (by decide +kernel),
    live_texts asked_started (Live.messages_open _ _ (by decide +kernel))⟩

end Sent

end Tools

end Crossbook
