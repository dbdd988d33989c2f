import Mathlib.Logic.Function.Basic
import Stargate.Base.Json
import Stargate.Base.Transition

/-!
# Event streams of invoices (`PaymentsService.stream`, `RedisSubscriptionService`)

All streams on a channel share one subject, and the service counts them: the first one sends
`SUBSCRIBE`, the last one `UNSUBSCRIBE`. A message that completes a stream runs its teardown
while the subject is still going through its observers.

- `World.stream`, `World.teardown`, `World.next`: what the two services do;
- `streaming`: clients, Redis and the streams, step by step;
- `Inv`: each channel of the service has its open streams as observers;
- `fan_out`: the service's channels, counts and subscriptions, and what each stream has
  emitted, after every run.
-/

namespace Stargate.EventStreams

open Base

/-! ## State -/

/-- What is sent over the subscription client. -/
inductive Command where
  | subscribe (channel : String)
  | unsubscribe (channel : String)
  deriving DecidableEq

/-- The client's channels after Redis has handled a command. -/
def Command.handle (subscribed : String → Bool) : Command → String → Bool
  | .subscribe channel => Function.update subscribed channel true
  | .unsubscribe channel => Function.update subscribed channel false

/-- `subscriptionClient`. -/
structure Client where
  /-- Commands that Redis has not handled yet, oldest first. -/
  sent : List Command
  /-- The channels that Redis has the client down for. -/
  subscribed : String → Bool

/-- `redis.duplicate()`. -/
def Client.new : Client := ⟨[], fun _ => false⟩

def Client.send (client : Client) (command : Command) : Client :=
  { client with sent := client.sent ++ [command] }

/-- The client's channels once Redis has handled all commands. -/
def Client.settled (client : Client) : String → Bool :=
  client.sent.foldl Command.handle client.subscribed

/-- A subject, by its number, and how many streams use it. -/
structure ChannelSubscriber where
  subject : Nat
  count : Int
  deriving DecidableEq

inductive Event where
  | heartbeat
  | data (value : Json)

/-- One subscriber of the `Observable` that `stream` returns. -/
structure Stream where
  channel : String
  subject : Nat
  isOpen : Bool
  emitted : List Event

def Stream.emit (stream : Stream) (event : Event) : Stream :=
  { stream with emitted := stream.emitted ++ [event] }

def Stream.closed (stream : Stream) : Stream := { stream with isOpen := false }

/-- The services, the subjects and the streams. Streams and subjects are numbered in the order
in which they come up. -/
structure World where
  subscriptionClient : Option Client
  channels : String → Option ChannelSubscriber
  /-- The observers of each subject. -/
  subjects : List (List Nat)
  streams : List Stream

/-! ## `RedisSubscriptionService` -/

/-- `ensureSubscriptionClient`. -/
def World.ensureSubscriptionClient (w : World) : Client := w.subscriptionClient.getD .new

/-- The entry of a channel, as it is or new. -/
def World.ensureChannel (w : World) (channel : String) : ChannelSubscriber × World :=
  match w.channels channel with
  | some subscriber => (subscriber, w)
  | none =>
    (⟨w.subjects.length, 0⟩,
      { w with
        subscriptionClient := some (w.ensureSubscriptionClient.send (.subscribe channel))
        subjects := w.subjects ++ [[]] })

def World.setChannel (w : World) (channel : String) (subscriber : Option ChannelSubscriber) :
    World :=
  { w with channels := Function.update w.channels channel subscriber }

def World.subscribe (w : World) (channel : String) : Nat × World :=
  let (subscriber, w) := w.ensureChannel channel
  (subscriber.subject,
    w.setChannel channel (some { subscriber with count := subscriber.count + 1 }))

def World.unsubscribe (w : World) (channel : String) : World :=
  match w.channels channel with
  | none => w
  | some subscriber =>
    let count := subscriber.count - 1
    if count ≤ 0 then
      { w.setChannel channel none with
        subscriptionClient := w.subscriptionClient.map (Client.send · (.unsubscribe channel)) }
    else
      w.setChannel channel (some { subscriber with count })

/-! ## `PaymentsService.stream` -/

/-- A client subscribes to `stream(invoiceId)`. -/
def World.stream (w : World) (invoiceId : String) : World :=
  let channel := "invoice:" ++ invoiceId
  let (subject, w) := w.subscribe channel
  { w with
    subjects := w.subjects.modify subject (· ++ [w.streams.length])
    streams := w.streams ++ [{ channel, subject, isOpen := true, emitted := [] }] }

/-- The timer is cleared, and the subject has an observer less. -/
def World.close (w : World) (id : Nat) (stream : Stream) : World :=
  { w with
    streams := w.streams.modify id Stream.closed
    subjects := w.subjects.modify stream.subject (·.erase id) }

/-- What runs, once, when the stream is closed or completes. -/
def World.teardown (w : World) (id : Nat) (stream : Stream) : World :=
  (w.close id stream).unsubscribe stream.channel

/-- `data.status === 'paid' || data.status === 'expired'`. For `null` the comparison throws,
after the emission; `rxjs` reports that later, and the stream stays open. -/
def isFinal (data : Json) : Bool :=
  match data.get "status".toList with
  | some (.string status) => status == "paid".toList || status == "expired".toList
  | _ => false

/-- `subscriber.next` -/
def World.emit (w : World) (id : Nat) (event : Event) : World :=
  { w with streams := w.streams.modify id (Stream.emit · event) }

/-- The observer that `stream` hands to the subject. A closed one does nothing. -/
def World.observe (data : Json) (w : World) (id : Nat) : World :=
  match w.streams[id]? with
  | none => w
  | some stream =>
    if stream.isOpen then
      let w := w.emit id (.data data)
      if isFinal data then w.teardown id stream else w
    else w

/-- `subject.next`: it goes through the observers that there are at the start. -/
def World.next (w : World) (subject : Nat) (data : Json) : World :=
  (w.subjects.getD subject []).foldl (World.observe data) w

/-- The client's `message` handler. -/
def World.message (w : World) (channel : String) (data : Json) : World :=
  match w.channels channel with
  | some subscriber => w.next subscriber.subject data
  | none => w

/-! ## Runs -/

inductive Step where
  | opens (invoiceId : String)
  /-- The client of a stream goes away. -/
  | closes (id : Nat)
  /-- The timer of a stream. -/
  | heartbeat (id : Nat)
  /-- Redis handles the oldest command. -/
  | handles
  /-- A message comes in, on any channel; `data` is what `JSON.parse` makes of it. -/
  | message (channel : String) (data : Json)

/-- The client's oldest command has been handled. -/
def Client.handled? (client : Client) : Option Client :=
  match client.sent with
  | [] => none
  | command :: sent => some ⟨sent, command.handle client.subscribed⟩

def streaming : Lts World Step where
  step w
    | .opens invoiceId => some (w.stream invoiceId)
    | .closes id =>
      w.streams[id]?.map fun stream => if stream.isOpen then w.teardown id stream else w
    | .heartbeat id =>
      match w.streams[id]? with
      | some stream =>
        -- the teardown has cleared the timer
        if stream.isOpen then some (w.emit id .heartbeat) else none
      | none => none
    | .handles => do
      let client ← w.subscriptionClient
      let client ← client.handled?
      some { w with subscriptionClient := some client }
    | .message channel data =>
      if w.subscriptionClient.isSome then some (w.message channel data) else none

def start : World where
  subscriptionClient := none
  channels _ := none
  subjects := []
  streams := []

/-! ## What the streams should see -/

def Stream.isOpenOn (stream : Stream) (channel : String) : Bool :=
  stream.isOpen && stream.channel == channel

/-- Is this stream open on the channel? -/
def World.isOpenOn (w : World) (channel : String) (id : Nat) : Bool :=
  (w.streams[id]?).any (Stream.isOpenOn · channel)

/-- The open streams on a channel, in the order in which they were opened. -/
def World.openOn (w : World) (channel : String) : List Nat :=
  (List.range w.streams.length).filter (w.isOpenOn channel)

def Event.data? : Event → Option Json
  | .heartbeat => none
  | .data value => some value

/-- The messages that a stream has emitted. -/
def World.emitted (w : World) (id : Nat) : List Json :=
  match w.streams[id]? with
  | some stream => stream.emitted.filterMap Event.data?
  | none => []

/-- The message that a stream is to emit in a step: one on its channel, while it is open. -/
def due (id : Nat) (w : World) : Step → List Json
  | .message channel data => if w.isOpenOn channel id then [data] else []
  | _ => []

/-- The client's channels once Redis has handled all commands. -/
def World.subscribed (w : World) : String → Bool :=
  match w.subscriptionClient with
  | some client => client.settled
  | none => fun _ => false

/-! ## Open streams -/

section OpenStreams

variable {w w' : World} {channel : String} {id : Nat}

theorem isOpenOn_iff : w.isOpenOn channel id = true ↔
    ∃ stream, w.streams[id]? = some stream ∧ stream.isOpen = true ∧ stream.channel = channel := by
  simp only [World.isOpenOn, Option.any_eq_true, Stream.isOpenOn, Bool.and_eq_true, beq_iff_eq]

theorem mem_openOn : id ∈ w.openOn channel ↔ w.isOpenOn channel id = true := by
  rw [World.openOn, List.mem_filter, List.mem_range, and_iff_right_iff_imp]
  intro h
  obtain ⟨stream, hstream, -⟩ := isOpenOn_iff.mp h
  exact (List.getElem?_eq_some_iff.mp hstream).1

theorem nodup_openOn (w : World) (channel : String) : (w.openOn channel).Nodup :=
  List.nodup_range.filter _

/-- A stream is open on one channel only. -/
theorem channel_unique {channel' : String} (h : w.isOpenOn channel id = true)
    (h' : w.isOpenOn channel' id = true) : channel = channel' := by
  obtain ⟨stream, hstream, -, hchannel⟩ := isOpenOn_iff.mp h
  obtain ⟨stream', hstream', -, hchannel'⟩ := isOpenOn_iff.mp h'
  rw [hstream] at hstream'
  cases hstream'
  rw [← hchannel, hchannel']

/-- The open streams are read off the streams. -/
theorem openOn_congr (hlength : w'.streams.length = w.streams.length)
    (h : ∀ id, w'.isOpenOn channel id = w.isOpenOn channel id) :
    w'.openOn channel = w.openOn channel := by
  rw [World.openOn, World.openOn, hlength]
  exact List.filter_congr fun id _ => h id

theorem openOn_emit (event : Event) : (w.emit id event).openOn channel = w.openOn channel := by
  refine openOn_congr (List.length_modify ..) fun id' => ?_
  rw [World.isOpenOn, World.isOpenOn, World.emit, List.getElem?_modify]
  cases w.streams[id']? with
  | none => rfl
  | some stream =>
    by_cases hid : id = id'
    · simp [hid, Stream.emit, Stream.isOpenOn]
    · simp [hid]

/-- A new stream comes last on its channel. -/
theorem openOn_concat {stream : Stream} (hw : w'.streams = w.streams ++ [stream])
    (hopen : stream.isOpen = true) :
    w'.openOn channel =
      w.openOn channel ++ if stream.channel = channel then [w.streams.length] else [] := by
  have hold : ∀ id ∈ List.range w.streams.length,
      w'.isOpenOn channel id = w.isOpenOn channel id := by
    intro id hid
    rw [World.isOpenOn, World.isOpenOn, hw, List.getElem?_append_left (List.mem_range.mp hid)]
  have hnew : w'.isOpenOn channel w.streams.length = decide (stream.channel = channel) := by
    rw [World.isOpenOn, hw, List.getElem?_concat_length, Option.any_some, Stream.isOpenOn, hopen,
      Bool.true_and]
    rfl
  rw [World.openOn, World.openOn, hw, List.length_append, List.length_singleton, List.range_succ,
    List.filter_append, List.filter_congr hold]
  congr 1
  by_cases hchannel : stream.channel = channel
  · simp [hnew, hchannel]
  · simp [hnew, hchannel]

/-- A stream that is closed is gone from the list. -/
theorem openOn_closed (hw : w'.streams = w.streams.modify id Stream.closed) :
    w'.openOn channel = (w.openOn channel).erase id := by
  rw [(nodup_openOn w channel).erase_eq_filter, World.openOn, World.openOn, List.filter_filter, hw,
    List.length_modify]
  refine List.filter_congr fun id' _ => ?_
  rw [World.isOpenOn, World.isOpenOn, hw, List.getElem?_modify]
  cases w.streams[id']? with
  | none => simp
  | some stream =>
    by_cases hid : id = id'
    · simp [hid, Stream.closed, Stream.isOpenOn]
    · simp [hid, Ne.symm hid]

end OpenStreams

/-! ## The invariant -/

/-- An entry of the service, its count and its subject. -/
structure World.Entry (w : World) (channel : String) (subscriber : ChannelSubscriber) : Prop where
  used : w.openOn channel ≠ []
  count : subscriber.count = (w.openOn channel).length
  observers : w.subjects[subscriber.subject]? = some (w.openOn channel)

structure Inv (w : World) : Prop where
  entry : ∀ channel subscriber, w.channels channel = some subscriber → w.Entry channel subscriber
  vacant : ∀ channel, w.channels channel = none → w.openOn channel = []
  subject : ∀ (id : Nat) (stream : Stream), w.streams[id]? = some stream → stream.isOpen = true →
    ∃ subscriber, w.channels stream.channel = some subscriber ∧
      subscriber.subject = stream.subject
  subscribed : ∀ channel, w.subscribed channel = (w.channels channel).isSome

/-- Two channels do not share a subject. -/
theorem Inv.subject_ne {w : World} (h : Inv w) {channel channel' : String}
    {subscriber subscriber' : ChannelSubscriber} (hne : channel ≠ channel')
    (hentry : w.channels channel = some subscriber)
    (hentry' : w.channels channel' = some subscriber') :
    subscriber.subject ≠ subscriber'.subject := by
  intro hsubject
  obtain ⟨hused, -, hobservers⟩ := h.entry channel subscriber hentry
  obtain ⟨-, -, hobservers'⟩ := h.entry channel' subscriber' hentry'
  rw [hsubject, hobservers'] at hobservers
  obtain ⟨id, hid⟩ := List.exists_mem_of_ne_nil _ hused
  have hid' : id ∈ w.openOn channel' := by
    rw [Option.some.inj hobservers]
    exact hid
  exact hne (channel_unique (mem_openOn.mp hid) (mem_openOn.mp hid'))

/-- What happens on one channel leaves the others as they are. -/
theorem Inv.of_others {w w' : World} (h : Inv w) (channel : String)
    (hchannels : ∀ c, c ≠ channel → w'.channels c = w.channels c)
    (hopenOn : ∀ c, c ≠ channel → w'.openOn c = w.openOn c)
    (hsubjects : ∀ c, c ≠ channel → ∀ subscriber, w.channels c = some subscriber →
      w'.subjects[subscriber.subject]? = w.subjects[subscriber.subject]?)
    (hentry : ∀ subscriber, w'.channels channel = some subscriber → w'.Entry channel subscriber)
    (hvacant : w'.channels channel = none → w'.openOn channel = [])
    (hsubject : ∀ (id : Nat) (stream : Stream), w'.streams[id]? = some stream →
      stream.isOpen = true → ∃ subscriber, w'.channels stream.channel = some subscriber ∧
        subscriber.subject = stream.subject)
    (hsubscribed : ∀ c, w'.subscribed c = (w'.channels c).isSome) : Inv w' := by
  refine ⟨?_, ?_, hsubject, hsubscribed⟩
  · intro c subscriber hc
    by_cases hcc : c = channel
    · subst hcc
      exact hentry subscriber hc
    · rw [hchannels c hcc] at hc
      obtain ⟨hused, hcount, hobservers⟩ := h.entry c subscriber hc
      refine ⟨?_, ?_, ?_⟩
      · rwa [hopenOn c hcc]
      · rwa [hopenOn c hcc]
      · rwa [hopenOn c hcc, hsubjects c hcc subscriber hc]
  · intro c hc
    by_cases hcc : c = channel
    · subst hcc
      exact hvacant hc
    · rw [hchannels c hcc] at hc
      rw [hopenOn c hcc]
      exact h.vacant c hc

/-! ## Commands -/

theorem Client.settled_send (client : Client) (command : Command) :
    (client.send command).settled = command.handle client.settled := by
  rw [Client.settled, Client.send, List.foldl_append]
  rfl

theorem settled_ensureSubscriptionClient (w : World) :
    w.ensureSubscriptionClient.settled = w.subscribed := by
  rw [World.ensureSubscriptionClient, World.subscribed]
  cases w.subscriptionClient with
  | none => rfl
  | some client => rfl

/-- Which command Redis handles when makes no difference in the end. -/
theorem Client.settled_handled {client client' : Client} (h : client.handled? = some client') :
    client'.settled = client.settled := by
  rw [Client.handled?] at h
  rw [Client.settled, Client.settled]
  cases hsent : client.sent with
  | nil =>
    rw [hsent] at h
    cases h
  | cons command sent =>
    rw [hsent] at h
    cases h
    rfl

/-! ## A stream is opened -/

/-- What a new stream finds: the entry counts the open streams and has them as observers, be
it one that the service has or a new one. -/
structure World.Ensured (w : World) (channel : String) (subscriber : ChannelSubscriber)
    (ensured : World) : Prop where
  channels : ensured.channels = w.channels
  streams : ensured.streams = w.streams
  count : subscriber.count = (w.openOn channel).length
  observers : ensured.subjects[subscriber.subject]? = some (w.openOn channel)
  same : ∀ known, w.channels channel = some known → known.subject = subscriber.subject
  others : ∀ c known, c ≠ channel → w.channels c = some known →
    known.subject ≠ subscriber.subject ∧
      ensured.subjects[known.subject]? = w.subjects[known.subject]?
  subscribed : ∀ c, ensured.subscribed c = (decide (c = channel) || (w.channels c).isSome)

theorem Inv.ensureChannel {w : World} (h : Inv w) (channel : String) :
    w.Ensured channel (w.ensureChannel channel).1 (w.ensureChannel channel).2 := by
  rw [World.ensureChannel]
  cases hentry : w.channels channel with
  | some subscriber =>
    obtain ⟨-, hcount, hobservers⟩ := h.entry channel subscriber hentry
    refine ⟨rfl, rfl, hcount, hobservers, fun known hknown => ?_, fun c known hc hknown => ?_,
      fun c => ?_⟩
    · rw [hentry] at hknown
      rw [Option.some.inj hknown]
    · exact ⟨h.subject_ne hc hknown hentry, rfl⟩
    · rw [h.subscribed]
      by_cases hc : c = channel
      · simp [hc, hentry]
      · simp [hc]
  | none =>
    refine ⟨rfl, rfl, ?_, ?_, fun known hknown => ?_, fun c known _ hknown => ?_, fun c => ?_⟩
    · rw [h.vacant channel hentry]
      rfl
    · rw [h.vacant channel hentry]
      exact List.getElem?_concat_length
    · rw [hentry] at hknown
      cases hknown
    · have hlt := (List.getElem?_eq_some_iff.mp (h.entry c known hknown).observers).1
      exact ⟨Nat.ne_of_lt hlt, List.getElem?_append_left hlt⟩
    · change (w.ensureSubscriptionClient.send (.subscribe channel)).settled c = _
      rw [Client.settled_send, settled_ensureSubscriptionClient, Command.handle,
        Function.update_apply, h.subscribed]
      by_cases hc : c = channel
      · simp [hc]
      · simp [hc]

/-- The stream joins those that are open on the channel. -/
theorem Inv.join {w ensured : World} (h : Inv w) {channel : String}
    {subscriber : ChannelSubscriber} (he : w.Ensured channel subscriber ensured) :
    Inv { ensured.setChannel channel
        (some { subscriber with count := subscriber.count + 1 }) with
      subjects := ensured.subjects.modify subscriber.subject (· ++ [ensured.streams.length])
      streams := ensured.streams ++ [⟨channel, subscriber.subject, true, []⟩] } := by
  generalize hw' : World.mk _ _ _ _ = w'
  have hstreams : w'.streams = w.streams ++ [⟨channel, subscriber.subject, true, []⟩] := by
    rw [← hw', he.streams]
  have hopenOn (c : String) : w'.openOn c =
      w.openOn c ++ if channel = c then [w.streams.length] else [] := openOn_concat hstreams rfl
  have hchannels (c : String) (hc : c ≠ channel) : w'.channels c = w.channels c := by
    rw [← hw', ← he.channels]
    exact Function.update_of_ne hc ..
  have hself : w'.channels channel = some { subscriber with count := subscriber.count + 1 } := by
    rw [← hw']
    exact Function.update_self ..
  have hkept (c : String) (known : ChannelSubscriber) (hc : w.channels c = some known) :
      ∃ now, w'.channels c = some now ∧ now.subject = known.subject := by
    by_cases hcc : c = channel
    · subst hcc
      exact ⟨_, hself, (he.same known hc).symm⟩
    · exact ⟨known, by rw [hchannels c hcc, hc], rfl⟩
  refine h.of_others channel hchannels (fun c hc => ?_) (fun c hc known hknown => ?_)
    (fun now hnow => ?_) (fun hnone => ?_) (fun id stream hstream hopen => ?_) (fun c => ?_)
  · rw [hopenOn, if_neg hc.symm, List.append_nil]
  · obtain ⟨hne, hold⟩ := he.others c known hc hknown
    rw [← hw', ← hold]
    exact List.getElem?_modify_ne _ _ hne.symm
  · rw [hself] at hnow
    cases hnow
    refine ⟨?_, ?_, ?_⟩
    · rw [hopenOn, if_pos rfl]
      exact List.concat_ne_nil _ _
    · rw [hopenOn, if_pos rfl, List.length_append, List.length_singleton, he.count]
      rfl
    · rw [hopenOn, if_pos rfl, ← hw', ← he.streams]
      exact (List.getElem?_modify_eq ..).trans (by rw [he.observers]; rfl)
  · rw [hself] at hnone
    cases hnone
  · rw [hstreams] at hstream
    by_cases hid : id < w.streams.length
    · rw [List.getElem?_append_left hid] at hstream
      obtain ⟨known, hknown, hsubject⟩ := h.subject id stream hstream hopen
      obtain ⟨now, hnow, hsame⟩ := hkept _ known hknown
      exact ⟨now, hnow, hsame.trans hsubject⟩
    · rw [List.getElem?_append_right (Nat.not_lt.mp hid)] at hstream
      cases List.mem_singleton.mp (List.mem_of_getElem? hstream)
      exact ⟨_, hself, rfl⟩
  · have hsubscribed : w'.subscribed c = ensured.subscribed c := by
      rw [← hw']
      rfl
    rw [hsubscribed, he.subscribed]
    by_cases hc : c = channel
    · subst hc
      rw [hself, decide_eq_true rfl]
      rfl
    · rw [hchannels c hc, decide_eq_false hc, Bool.false_or]

theorem Inv.stream {w : World} (h : Inv w) (invoiceId : String) : Inv (w.stream invoiceId) :=
  h.join (h.ensureChannel _)

/-! ## A stream is closed -/

section Teardown

variable {w : World} {id : Nat} {stream : Stream}

/-- The streams after `unsubscribe` are those before it, and so are the subjects. -/
theorem unsubscribe_eq (channel : String) : ∃ channels subscriptionClient,
    w.unsubscribe channel = { w with channels, subscriptionClient } := by
  unfold World.unsubscribe
  split
  · exact ⟨_, _, rfl⟩
  · dsimp only
    split
    · exact ⟨_, _, rfl⟩
    · exact ⟨_, _, rfl⟩

theorem streams_unsubscribe (channel : String) :
    (w.unsubscribe channel).streams = w.streams := by
  obtain ⟨_, _, heq⟩ := unsubscribe_eq (w := w) channel
  rw [heq]

theorem subjects_unsubscribe (channel : String) :
    (w.unsubscribe channel).subjects = w.subjects := by
  obtain ⟨_, _, heq⟩ := unsubscribe_eq (w := w) channel
  rw [heq]

/-- The service drops the channel with the last stream, and counts down before that. -/
theorem channels_unsubscribe {channel : String} {subscriber : ChannelSubscriber}
    (hentry : w.channels channel = some subscriber) (c : String) :
    (w.unsubscribe channel).channels c =
      if c = channel then
        if subscriber.count - 1 ≤ 0 then none
        else some { subscriber with count := subscriber.count - 1 }
      else w.channels c := by
  rw [World.unsubscribe, hentry]
  simp only
  split
  · exact Function.update_apply ..
  · exact Function.update_apply ..

theorem subscribed_unsubscribe {channel : String} {subscriber : ChannelSubscriber}
    (hentry : w.channels channel = some subscriber) (c : String) :
    (w.unsubscribe channel).subscribed c =
      if c = channel ∧ subscriber.count - 1 ≤ 0 then false else w.subscribed c := by
  rw [World.unsubscribe, hentry]
  simp only
  by_cases hcount : subscriber.count - 1 ≤ 0
  · rw [if_pos hcount, World.subscribed, World.subscribed]
    cases w.subscriptionClient with
    | none => simp
    | some client =>
      simp only [Option.map_some, Client.settled_send, Command.handle, Function.update_apply,
        hcount, and_true]
  · rw [if_neg hcount, if_neg fun h => hcount h.2]
    rfl

theorem streams_teardown (stream : Stream) :
    (w.teardown id stream).streams = w.streams.modify id Stream.closed :=
  streams_unsubscribe _

/-- What a stream that is closed leaves behind: its entry counts one less, and is dropped with
the last one. -/
structure World.TornDown (w : World) (id : Nat) (stream : Stream) (subscriber : ChannelSubscriber)
    (w' : World) : Prop where
  streams : w'.streams = w.streams.modify id Stream.closed
  subjects : w'.subjects = w.subjects.modify stream.subject (·.erase id)
  channels : ∀ c, w'.channels c =
    if c = stream.channel then
      if subscriber.count - 1 ≤ 0 then none
      else some { subscriber with count := subscriber.count - 1 }
    else w.channels c
  subscribed : ∀ c, w'.subscribed c =
    if c = stream.channel ∧ subscriber.count - 1 ≤ 0 then false else w.subscribed c

theorem tornDown_teardown {subscriber : ChannelSubscriber}
    (hentry : w.channels stream.channel = some subscriber) :
    w.TornDown id stream subscriber (w.teardown id stream) where
  streams := streams_teardown stream
  subjects := subjects_unsubscribe _
  channels := channels_unsubscribe (w := w.close id stream) hentry
  subscribed := subscribed_unsubscribe (w := w.close id stream) hentry

/-- The count of the entry is that of the streams that are left. -/
theorem World.TornDown.length_openOn {w' : World} {subscriber : ChannelSubscriber}
    (ht : w.TornDown id stream subscriber w') (hmem : id ∈ w.openOn stream.channel)
    (hcount : subscriber.count = (w.openOn stream.channel).length) :
    (w'.openOn stream.channel).length = subscriber.count - 1 := by
  have hpos := List.length_pos_of_mem hmem
  rw [openOn_closed ht.streams, List.length_erase_of_mem hmem, hcount]
  omega

/-- The entry of another stream that is open is still there. -/
theorem World.TornDown.subject {w' : World} {subscriber : ChannelSubscriber}
    (ht : w.TornDown id stream subscriber w') (h : Inv w)
    (hstream : w.streams[id]? = some stream)
    (hentry : w.channels stream.channel = some subscriber)
    (hlength : (w'.openOn stream.channel).length = subscriber.count - 1) {id' : Nat}
    {stream' : Stream} (hstream' : w'.streams[id']? = some stream')
    (hopen' : stream'.isOpen = true) :
    ∃ known, w'.channels stream'.channel = some known ∧ known.subject = stream'.subject := by
  rw [ht.streams] at hstream'
  by_cases hid : id = id'
  · subst hid
    rw [List.getElem?_modify_eq, hstream] at hstream'
    cases hstream'
    cases hopen'
  · rw [List.getElem?_modify_ne _ _ hid] at hstream'
    obtain ⟨known, hknown, hsame⟩ := h.subject id' stream' hstream' hopen'
    by_cases hc : stream'.channel = stream.channel
    · have hmem' : id' ∈ w'.openOn stream.channel := by
        rw [openOn_closed ht.streams, List.mem_erase_of_ne (Ne.symm hid)]
        exact mem_openOn.mpr (isOpenOn_iff.mpr ⟨stream', hstream', hopen', hc⟩)
      have hmore : ¬ subscriber.count - 1 ≤ 0 := by
        have hpos := List.length_pos_of_mem hmem'
        omega
      rw [hc, hentry] at hknown
      cases hknown
      rw [hc, ht.channels, if_pos rfl, if_neg hmore]
      exact ⟨_, rfl, hsame⟩
    · exact ⟨known, by rw [ht.channels, if_neg hc, hknown], hsame⟩

theorem Inv.teardown (h : Inv w) (hstream : w.streams[id]? = some stream)
    (hopen : stream.isOpen = true) : Inv (w.teardown id stream) := by
  obtain ⟨subscriber, hentry, hsubject⟩ := h.subject id stream hstream hopen
  obtain ⟨-, hcount, hobservers⟩ := h.entry _ subscriber hentry
  have hmem : id ∈ w.openOn stream.channel :=
    mem_openOn.mpr (isOpenOn_iff.mpr ⟨stream, hstream, hopen, rfl⟩)
  have ht : w.TornDown id stream subscriber (w.teardown id stream) := tornDown_teardown hentry
  generalize w.teardown id stream = w' at ht ⊢
  have hopenOn (c : String) : w'.openOn c = (w.openOn c).erase id := openOn_closed ht.streams
  have hlength := ht.length_openOn hmem hcount
  have hself := ht.channels stream.channel
  rw [if_pos rfl] at hself
  refine h.of_others stream.channel (fun c hc => ?_) (fun c hc => ?_) (fun c hc known hknown => ?_)
    (fun now hnow => ?_) (fun hnone => ?_)
    (fun id' stream' => ht.subject h hstream hentry hlength) (fun c => ?_)
  · rw [ht.channels, if_neg hc]
  · have hother : id ∉ w.openOn c := fun hid =>
      hc (channel_unique (mem_openOn.mp hid) (mem_openOn.mp hmem))
    rw [hopenOn, List.erase_of_not_mem hother]
  · rw [ht.subjects, ← hsubject]
    exact List.getElem?_modify_ne _ _ (h.subject_ne hc.symm hentry hknown)
  · -- some other stream is still open
    rw [hself] at hnow
    split at hnow
    · cases hnow
    · next hmore =>
      cases hnow
      refine ⟨fun hnil => ?_, hlength.symm, ?_⟩
      · rw [hnil] at hlength
        exact hmore (le_of_eq hlength.symm)
      · rw [hopenOn, ht.subjects, ← hsubject, List.getElem?_modify_eq, hobservers]
        rfl
  · -- this was the last one
    rw [hself] at hnone
    split at hnone
    · next hlast =>
      rw [← hlength] at hlast
      exact List.eq_nil_of_length_eq_zero (by omega)
    · cases hnone
  · rw [ht.subscribed, ht.channels, h.subscribed]
    by_cases hc : c = stream.channel
    · subst hc
      by_cases hlast : subscriber.count - 1 ≤ 0
      · simp [hlast]
      · simp [hlast, hentry]
    · simp [hc]

end Teardown

/-! ## A message is delivered -/

section Delivery

variable {w w' : World} {id : Nat}

theorem isOpenOn_congr (h : w'.streams[id]? = w.streams[id]?) (channel : String) :
    w'.isOpenOn channel id = w.isOpenOn channel id := by
  rw [World.isOpenOn, World.isOpenOn, h]

theorem emitted_congr (h : w'.streams[id]? = w.streams[id]?) : w'.emitted id = w.emitted id := by
  rw [World.emitted, World.emitted, h]

/-- Closing a stream does not change what it has emitted. -/
theorem emitted_closed (hw : w'.streams = w.streams.modify id Stream.closed) (id' : Nat) :
    w'.emitted id' = w.emitted id' := by
  by_cases hid : id = id'
  · subst hid
    rw [World.emitted, World.emitted, hw, List.getElem?_modify_eq]
    cases w.streams[id]? with
    | none => rfl
    | some stream => rfl
  · refine emitted_congr ?_
    rw [hw, List.getElem?_modify_ne _ _ hid]

theorem emitted_emit {stream : Stream} (hstream : w.streams[id]? = some stream) (event : Event) :
    (w.emit id event).emitted id = w.emitted id ++ event.data?.toList := by
  have hemit : (w.emit id event).streams[id]? = some (stream.emit event) := by
    rw [World.emit, List.getElem?_modify_eq, hstream]
    rfl
  rw [World.emitted, World.emitted, hemit, hstream]
  simp only [Stream.emit, List.filterMap_append]
  cases event with
  | heartbeat => rfl
  | data value => rfl

theorem Inv.emit (h : Inv w) (id : Nat) (event : Event) : Inv (w.emit id event) := by
  refine ⟨fun c subscriber hc => ?_, fun c hc => ?_, fun id' stream hstream hopen => ?_,
    h.subscribed⟩
  · obtain ⟨hused, hcount, hobservers⟩ := h.entry c subscriber hc
    exact ⟨by rwa [openOn_emit], by rwa [openOn_emit], by rwa [openOn_emit]⟩
  · rw [openOn_emit]
    exact h.vacant c hc
  · rw [World.emit, List.getElem?_modify] at hstream
    obtain ⟨before, hbefore, rfl⟩ := Option.map_eq_some_iff.mp hstream
    by_cases hid : id = id'
    · simp only [hid, if_true] at hopen ⊢
      exact h.subject id' before hbefore hopen
    · simp only [hid, if_false] at hopen ⊢
      exact h.subject id' before hbefore hopen

/-- An open stream emits the message, and the others are left alone, also where it completes. -/
theorem Inv.observe {channel : String} (h : Inv w) (hopen : w.isOpenOn channel id = true)
    (data : Json) :
    Inv (w.observe data id) ∧ (w.observe data id).emitted id = w.emitted id ++ [data] ∧
      ∀ id', id' ≠ id → (w.observe data id).streams[id']? = w.streams[id']? := by
  obtain ⟨stream, hstream, hisOpen, -⟩ := isOpenOn_iff.mp hopen
  have hemit := h.emit id (.data data)
  have hemitted : (w.emit id (.data data)).emitted id = w.emitted id ++ [data] :=
    emitted_emit hstream (.data data)
  have hothers (id' : Nat) (hid : id' ≠ id) :
      (w.emit id (.data data)).streams[id']? = w.streams[id']? :=
    List.getElem?_modify_ne _ _ hid.symm
  have hself : (w.emit id (.data data)).streams[id]? = some (stream.emit (.data data)) := by
    rw [World.emit, List.getElem?_modify_eq, hstream]
    rfl
  simp only [World.observe, hstream, hisOpen, if_true]
  by_cases hfinal : isFinal data = true
  · -- the teardown runs while the subject is still delivering
    rw [if_pos hfinal]
    have hteardown := hemit.teardown hself hisOpen
    refine ⟨hteardown, ?_, fun id' hid => ?_⟩
    · rw [emitted_closed (streams_teardown stream), hemitted]
    · rw [streams_teardown, List.getElem?_modify_ne _ _ hid.symm, hothers id' hid]
  · rw [if_neg hfinal]
    exact ⟨hemit, hemitted, hothers⟩

/-- A subject goes through its observers, each of which is open when its turn comes. -/
theorem Inv.next {channel : String} {ids : List Nat} (h : Inv w) (data : Json)
    (hids : ids.Nodup) (hopen : ∀ id ∈ ids, w.isOpenOn channel id = true) :
    Inv (ids.foldl (World.observe data) w) ∧
      (∀ id ∈ ids, (ids.foldl (World.observe data) w).emitted id = w.emitted id ++ [data]) ∧
      ∀ id, id ∉ ids → (ids.foldl (World.observe data) w).streams[id]? = w.streams[id]? := by
  induction ids generalizing w with
  | nil => exact ⟨h, fun id hid => absurd hid List.not_mem_nil, fun _ _ => rfl⟩
  | cons first ids ih =>
    obtain ⟨hfirst, hids⟩ := List.nodup_cons.mp hids
    obtain ⟨hinv, hemitted, hothers⟩ := h.observe (hopen first List.mem_cons_self) data
    have hne {id : Nat} (hid : id ∈ ids) : id ≠ first := fun heq => hfirst (heq ▸ hid)
    obtain ⟨hinv', hemitted', hothers'⟩ := ih hinv hids fun id hid => by
      rw [isOpenOn_congr (hothers id (hne hid))]
      exact hopen id (List.mem_cons_of_mem _ hid)
    refine ⟨hinv', fun id hid => ?_, fun id hid => ?_⟩
    · rw [List.foldl_cons]
      cases List.mem_cons.mp hid with
      | inl heq =>
        subst heq
        rw [emitted_congr (hothers' _ hfirst), hemitted]
      | inr hrest => rw [hemitted' id hrest, emitted_congr (hothers id (hne hrest))]
    · rw [List.mem_cons, not_or] at hid
      obtain ⟨hne, hid⟩ := hid
      rw [List.foldl_cons, hothers' id hid, hothers id hne]

/-- **A message is emitted** once by every stream that is open on its channel, and by no other. -/
theorem Inv.message (h : Inv w) (channel : String) (data : Json) :
    Inv (w.message channel data) ∧
      ∀ id, (w.message channel data).emitted id =
        w.emitted id ++ if w.isOpenOn channel id then [data] else [] := by
  rw [World.message]
  cases hentry : w.channels channel with
  | none =>
    refine ⟨h, fun id => ?_⟩
    have hclosed : ¬ w.isOpenOn channel id = true := by
      intro hopen
      have hmem := mem_openOn.mpr hopen
      rw [h.vacant channel hentry] at hmem
      exact List.not_mem_nil hmem
    rw [if_neg hclosed, List.append_nil]
  | some subscriber =>
    have hobservers : w.subjects.getD subscriber.subject [] = w.openOn channel := by
      rw [List.getD_eq_getElem?_getD, (h.entry channel subscriber hentry).observers,
        Option.getD_some]
    obtain ⟨hinv, hemitted, hothers⟩ :=
      h.next data (nodup_openOn w channel) fun id => mem_openOn.mp
    simp only [World.next, hobservers]
    refine ⟨hinv, fun id => ?_⟩
    by_cases hopen : w.isOpenOn channel id = true
    · rw [if_pos hopen, hemitted id (mem_openOn.mpr hopen)]
    · rw [if_neg hopen, List.append_nil,
        emitted_congr (hothers id fun hid => hopen (mem_openOn.mp hid))]

end Delivery

/-! ## Every run -/

/-- The service has an entry for each channel with an open stream, it counts the streams, and
the client is subscribed to these channels once Redis has handled all commands. -/
structure World.Exact (w : World) : Prop where
  entry : ∀ channel, (w.channels channel).isSome = true ↔ w.openOn channel ≠ []
  count : ∀ channel subscriber, w.channels channel = some subscriber →
    subscriber.count = (w.openOn channel).length
  subscribed : ∀ channel, w.subscribed channel = (w.channels channel).isSome

theorem Inv.exact {w : World} (h : Inv w) : w.Exact := by
  refine ⟨fun channel => ?_, fun channel subscriber hentry => ?_, h.subscribed⟩
  · cases hentry : w.channels channel with
    | none => simp [h.vacant channel hentry]
    | some subscriber => simp [(h.entry channel subscriber hentry).used]
  · exact (h.entry channel subscriber hentry).count

theorem inv_start : Inv start :=
  ⟨nofun, fun _ _ => rfl, fun _ _ hstream => absurd hstream (by simp [start]), fun _ => rfl⟩

theorem Inv.handles {w : World} (h : Inv w) {client client' : Client}
    (hclient : w.subscriptionClient = some client) (hhandled : client.handled? = some client') :
    Inv { w with subscriptionClient := some client' } := by
  refine ⟨fun channel subscriber hentry => ?_, h.vacant, h.subject, fun channel => ?_⟩
  · obtain ⟨hused, hcount, hobservers⟩ := h.entry channel subscriber hentry
    exact ⟨hused, hcount, hobservers⟩
  rw [← h.subscribed channel, World.subscribed, World.subscribed, hclient]
  exact congrFun (Client.settled_handled hhandled) channel

/-- A stream that is opened has emitted nothing. -/
theorem emitted_stream {w : World} (h : Inv w) (invoiceId : String) (id : Nat) :
    (w.stream invoiceId).emitted id = w.emitted id := by
  have hstreams : (w.stream invoiceId).streams = w.streams ++
      [⟨"invoice:" ++ invoiceId, (w.ensureChannel ("invoice:" ++ invoiceId)).1.subject, true,
        []⟩] :=
    congrArg (· ++ _) (h.ensureChannel ("invoice:" ++ invoiceId)).streams
  by_cases hid : id < w.streams.length
  · refine emitted_congr ?_
    rw [hstreams, List.getElem?_append_left hid]
  · have hnone : w.streams[id]? = none := List.getElem?_eq_none (Nat.not_lt.mp hid)
    rw [World.emitted, World.emitted, hnone, hstreams,
      List.getElem?_append_right (Nat.not_lt.mp hid)]
    cases id - w.streams.length with
    | zero => rfl
    | succ n => rfl

/-- What a step keeps, and what each stream emits in it. -/
theorem step_spec {w w' : World} {a : Step} (h : Inv w) (hstep : streaming.step w a = some w') :
    Inv w' ∧ ∀ id, w'.emitted id = w.emitted id ++ due id w a := by
  cases a with
  | opens invoiceId =>
    cases hstep
    refine ⟨h.stream invoiceId, fun id => ?_⟩
    exact (emitted_stream h invoiceId id).trans (List.append_nil _).symm
  | closes id =>
    simp only [streaming, Option.map_eq_some_iff] at hstep
    obtain ⟨stream, hstream, hw⟩ := hstep
    split at hw
    · next hopen =>
      subst hw
      refine ⟨h.teardown hstream hopen, fun id' => ?_⟩
      exact (emitted_closed (streams_teardown stream) id').trans (List.append_nil _).symm
    · subst hw
      exact ⟨h, fun id' => (List.append_nil _).symm⟩
  | heartbeat id =>
    simp only [streaming] at hstep
    split at hstep
    · next stream hstream =>
      split at hstep
      · cases hstep
        refine ⟨h.emit id .heartbeat, fun id' => ?_⟩
        by_cases hid : id = id'
        · subst hid
          exact emitted_emit hstream .heartbeat
        · have hother : (w.emit id .heartbeat).emitted id' = w.emitted id' :=
            emitted_congr (List.getElem?_modify_ne _ _ hid)
          exact hother.trans (List.append_nil _).symm
      · cases hstep
    · cases hstep
  | handles =>
    simp only [streaming, Option.bind_eq_bind, Option.bind_eq_some_iff] at hstep
    obtain ⟨client, hclient, client', hhandled, hw⟩ := hstep
    cases hw
    exact ⟨h.handles hclient hhandled, fun id => (List.append_nil _).symm⟩
  | message channel data =>
    simp only [streaming] at hstep
    split at hstep
    · cases hstep
      exact h.message channel data
    · cases hstep

/-- **The fan-out is exact** in every run, and what a stream has emitted is the messages that
came in on its channel while it was open, each of them once. -/
theorem fan_out (run : List Step) (w : World) (hrun : streaming.run start run = some w) :
    w.Exact ∧ ∀ id, w.emitted id = streaming.outputs (due id) start run := by
  have h := streaming.inv_of_history
    (I := fun done u => Inv u ∧ ∀ id, u.emitted id = streaming.outputs (due id) start done)
    ⟨inv_start, fun id => rfl⟩ (fun done u a u' hdone hI hstep => ?_) hrun
  · exact ⟨h.1.exact, h.2⟩
  · obtain ⟨hinv, hemitted⟩ := step_spec hI.1 hstep
    refine ⟨hinv, fun id => ?_⟩
    rw [hemitted, hI.2 id, streaming.outputs_concat a hdone]

/-- What is published for an invoice. -/
def status (text : String) : Json := .object [("status".toList, .string text.toList)]

/-- Two streams on an invoice, of which one is closed by its client and the other by the
payment. -/
def twoStreams : List Step :=
  [.opens "7", .opens "7", .handles, .message "invoice:7" (status "partial"), .closes 0,
    .message "invoice:7" (status "paid"), .handles]

theorem fan_out_twoStreams :
    ∃ w, streaming.run start twoStreams = some w ∧ w.Exact ∧
      w.emitted 0 = [status "partial"] ∧ w.emitted 1 = [status "partial", status "paid"] ∧
      (w.channels "invoice:7").isNone = true := by
  refine ⟨_, rfl, (fan_out twoStreams _ rfl).1, ?_⟩
  refine ⟨rfl, rfl, rfl⟩

end Stargate.EventStreams
