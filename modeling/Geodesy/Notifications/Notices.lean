import Geodesy.Event.Records
import Geodesy.Notifications.SnsTopics

/-!
# Notifications on the event loop

Three services send a notification of the events that they handle, and then mark the event as
handled.  What is sent is sent: no transaction takes it back when a later topic cannot be published
to, when the event cannot be saved or when the process stops.  So it matters that the loop does not
try again.

`Notices` is the publisher with what was sent so far.  Of one record at most one message goes to a
topic, and only to topics named after the stack and the event; when the handler returns, there is
one for each of the topics that were listed (`notified_at_most_once`).
-/

namespace Geodesy

open TransitionSystem AsynchronousEventPublisher SnsNotificationAdapter

variable {κ : Type*}

/-- The events that there are notifications of; the payloads of the others are those of `κ`. -/
inductive NotifiedEvent (κ : Type*)
  | siteLogReceived (e : SiteLogReceived)
  | userRegistrationReceived (userRegistrationId : ℕ)
  | newCorsSiteRequestReceived (newCorsSiteRequestId : ℕ)
  | other (payload : κ)
  deriving DecidableEq, Repr

/-- `Event.getName`, of the events that there are notifications of. -/
def NotifiedEvent.getName : NotifiedEvent κ → Option String
  | siteLogReceived _ => some "SiteLogReceived"
  | userRegistrationReceived _ => some "UserRegistrationReceived"
  | newCorsSiteRequestReceived _ => some "NewCorsSiteRequestReceived"
  | other _ => none

/-- `SiteLogReceivedNotificationService` as a subscriber. -/
def siteLogReceivedNotificationService : EventSubscriber (NotifiedEvent κ) where
  className := "class au.gov.ga.geodesy.domain.service.SiteLogReceivedNotificationService"
  canHandle
    | .siteLogReceived _ => true
    | _ => false

/-- `UserRegistrationNotificationService` as a subscriber. -/
def userRegistrationNotificationService : EventSubscriber (NotifiedEvent κ) where
  className := "class au.gov.ga.geodesy.domain.service.UserRegistrationNotificationService"
  canHandle
    | .userRegistrationReceived _ => true
    | _ => false

/-- `NewCorsSiteRequestNotificationService` as a subscriber. -/
def newCorsSiteRequestNotificationService : EventSubscriber (NotifiedEvent κ) where
  className := "class au.gov.ga.geodesy.domain.service.NewCorsSiteRequestNotificationService"
  canHandle
    | .newCorsSiteRequestReceived _ => true
    | _ => false

/-- The services that send notifications. -/
def notificationServices : List (EventSubscriber (NotifiedEvent κ)) :=
  [siteLogReceivedNotificationService, userRegistrationNotificationService,
    newCorsSiteRequestNotificationService]

/-! ## The notification -/

/-- `getBody`: the text that Jackson makes of an object after some introduction, or else a message
with the key of the object. -/
def body (introduction errorMessage : String) (id : ℕ) : Option String → String
  | some json => introduction ++ json
  | none => errorMessage ++ toString id

/-- `toNotification`, given what Jackson makes of the event, the registration or the request. -/
def toNotification (json : Option String) (e : Event (NotifiedEvent κ)) : Option Notification :=
  e.payload.getName.map fun subject =>
    { subject
      body := match e.payload with
        | .userRegistrationReceived id =>
          body "We have received a new user registration request.\n\n"
            "Failed to serialise user registration object with id " id json
        | .newCorsSiteRequestReceived id =>
          body "We have received a new site creation request.\n\n"
            "Failed to serialise new site request object with id " id json
        | _ => body "" "Failed to serialise event with id " e.id json }

/-- A message that SNS was given, and the record that it was sent for. -/
structure SnsMessage where
  eventId : ℕ
  topicArn : String
  message : String
  subject : String
  deriving DecidableEq, Repr

/-- `SnsNotificationAdapter.sendNotification`: what is published to each of the topics. -/
def sendNotification (stackName : Option String) (notification : Notification)
    (topics : List String) (eventId : ℕ) : List SnsMessage :=
  (snsTopics stackName notification topics).map fun arn =>
    ⟨eventId, arn, notification.body, notification.subject⟩

/-! ## The system -/

/-- How a call of a notification service ends. -/
inductive NoticeOutcome
  | returns (now : Instant)
  /-- It throws, and its transaction is rolled back. -/
  | throws (handledAt : Option Instant) (stackTrace : String)
  /-- The process stops. -/
  | stops

/-- What that is to the publisher. -/
def NoticeOutcome.step : NoticeOutcome → EventStep κ
  | returns now => .handlerReturns (some now) []
  | throws handledAt stackTrace => .handlerThrows handledAt stackTrace
  | stops => .stop

/-- What was sent of the messages by then: all of them when the call returns. -/
def NoticeOutcome.sent (reached : ℕ) (messages : List SnsMessage) :
    NoticeOutcome → List SnsMessage
  | returns _ => messages
  | throws _ _ | stops => messages.take reached

/-- The publisher, and the messages that were sent. -/
structure Notices (κ : Type*) where
  deliveries : Deliveries (NotifiedEvent κ)
  sent : List SnsMessage

/-- One step of the system. -/
inductive NoticeStep (κ : Type*)
  /-- A step of the publisher, or of another service. -/
  | delivery (a : DeliveryStep (NotifiedEvent κ))
  /-- A call of a notification service, with what Jackson and SNS return.  If it does not return it
  got as far as the given number of topics. -/
  | notification (json : Option String) (topics : List String) (reached : ℕ)
    (outcome : NoticeOutcome)

/-- The notification service that the loop calls, and the event. -/
def EventLoop.notifies (loop : EventLoop (NotifiedEvent κ)) :
    Option (EventSubscriber (NotifiedEvent κ) × Event (NotifiedEvent κ)) :=
  notificationServices.findSome? fun service =>
    (loop.delivers service.className).map fun e => (service, e)

/-- The step is not the normal end of a call of a notification service. -/
def DeliveryStep.isSilent (loop : EventLoop (NotifiedEvent κ)) :
    DeliveryStep (NotifiedEvent κ) → Bool
  | .event (.handlerReturns _ _) => loop.notifies.isNone
  | _ => true

namespace Notices

/-- Nothing published or sent, and no process. -/
def init : Notices κ := ⟨Deliveries.init, []⟩

variable [DecidableEq κ]

/-- What a step does, if it is possible. -/
def run (stackName : Option String) (s : Notices κ) : NoticeStep κ → Option (Notices κ)
  | .delivery a =>
    if a.isSilent s.deliveries.publisher.loop then
      (s.deliveries.run a).map fun deliveries => { s with deliveries }
    else none
  | .notification json topics reached outcome =>
    match s.deliveries.publisher.loop.notifies with
    | some (service, e) =>
      match toNotification json e with
      | some notification =>
        if service.canHandle e.payload then
          (s.deliveries.run (.event outcome.step)).map fun deliveries =>
            { deliveries
              sent := s.sent ++
                outcome.sent reached (sendNotification stackName notification topics e.id) }
        else none
      | none => none
    | none => none

/-- The step is possible and leads from the first state to the second. -/
def Takes (stackName : Option String) (s : Notices κ) (a : NoticeStep κ) (s' : Notices κ) : Prop :=
  s.run stackName a = some s'

end Notices

/-! ## One call -/

lemma EventLoop.exists_of_notifies {loop : EventLoop (NotifiedEvent κ)}
    {service : EventSubscriber (NotifiedEvent κ)} {e : Event (NotifiedEvent κ)}
    (h : loop.notifies = some (service, e)) :
    service ∈ notificationServices ∧ loop.delivers service.className = some e := by
  obtain ⟨service', hmem, hfound⟩ := List.exists_of_findSome?_eq_some h
  obtain ⟨e', hdelivers, heq⟩ := Option.map_eq_some_iff.mp hfound
  obtain ⟨rfl, rfl⟩ := Prod.mk.inj heq
  exact ⟨hmem, hdelivers⟩

lemma NoticeOutcome.sent_sublist (outcome : NoticeOutcome) (reached : ℕ)
    (messages : List SnsMessage) : (outcome.sent reached messages).Sublist messages := by
  cases outcome with
  | returns now => exact List.Sublist.refl messages
  | throws handledAt stackTrace => exact List.take_sublist reached messages
  | stops => exact List.take_sublist reached messages

/-- Each outcome ends the call. -/
lemma NoticeOutcome.call_step {st : PublisherState κ} {e : Event κ} {className : String}
    (hdelivers : st.loop.delivers className = some e) (outcome : NoticeOutcome) :
    (outcome.step : EventStep κ).call st = some (e.id, className) := by
  obtain ⟨s, subscribers, es, hloop, rfl⟩ := EventLoop.exists_of_delivers hdelivers
  cases outcome <;> simp [step, EventStep.call, hloop]

/-- A message for a record goes to a topic named after the record's event. -/
def SnsMessage.IsFor (stackName : Option String) (topics : List String) (m : SnsMessage)
    (r : Record (NotifiedEvent κ)) : Prop :=
  r.id = m.eventId ∧ r.payload.getName = some m.subject ∧ m.topicArn ∈ topics ∧
    IsTopicArn stackName m.subject m.topicArn

lemma isFor_of_mem_sendNotification {stackName : Option String} {topics : List String}
    {json : Option String} {e : Event (NotifiedEvent κ)} {notification : Notification}
    {m : SnsMessage} (hnotification : toNotification json e = some notification)
    (hm : m ∈ sendNotification stackName notification topics e.id) :
    m.IsFor stackName topics e.record := by
  obtain ⟨arn, harn, rfl⟩ := List.mem_map.mp hm
  obtain ⟨subject, hname, rfl⟩ := Option.map_eq_some_iff.mp hnotification
  obtain ⟨hlisted, htopic⟩ := List.mem_filter.mp harn
  exact ⟨rfl, hname, hlisted, isTopicOf_iff.mp htopic⟩

/-! ## What every step keeps -/

namespace Notices

variable (Listed : List String → Prop) (stackName : Option String)

/-- Messages are only there for records that were handed over, and there is one for a topic. -/
structure Notified (s : Notices κ) : Prop where
  once : s.deliveries.Once
  onRecord : s.deliveries.publisher.OnRecord
  sent : ∀ m ∈ s.sent, m.eventId ∈ s.deliveries.handed.map (·.1) ∧
    ∃ r ∈ s.deliveries.publisher.events.records, ∃ service ∈ notificationServices,
      r.subscriber = service.className ∧ service.canHandle r.payload = true ∧
      ∃ topics, Listed topics ∧ m.IsFor stackName topics r
  nodup : (s.sent.map fun m => (m.eventId, m.topicArn)).Nodup

lemma notified_init : Notified Listed stackName (init : Notices κ) where
  once := Deliveries.once_init
  onRecord := PublisherState.onRecord_init
  sent := by simp [init]
  nodup := by simp [init]

variable {Listed stackName} [DecidableEq κ] {s s' : Notices κ}

/-- A step of the publisher with which nothing is sent. -/
lemma Notified.silent (h : Notified Listed stackName s) (hclasses : s.deliveries.DistinctClasses)
    {a : DeliveryStep (NotifiedEvent κ)} {d : Deliveries (NotifiedEvent κ)}
    (hstep : Deliveries.Takes s.deliveries a d) :
    Notified Listed stackName { s with deliveries := d } := by
  obtain ⟨honRecord, ⟨new, hnew, -⟩, hhanded⟩ :=
    Deliveries.records_step h.onRecord h.once.coherent hstep
  refine ⟨h.once.step hclasses hstep, honRecord, fun m hm => ?_, h.nodup⟩
  obtain ⟨hid, r, hr, hfor⟩ := h.sent m hm
  refine ⟨List.map_subset _ hhanded.subset hid, r, ?_, hfor⟩
  rw [hnew]
  exact List.mem_append_left _ hr

/-- A call of a notification service ends, and some of its messages are sent. -/
lemma Notified.notification (h : Notified Listed stackName s)
    (hclasses : s.deliveries.DistinctClasses) {service : EventSubscriber (NotifiedEvent κ)}
    {e : Event (NotifiedEvent κ)} {json : Option String} {notification : Notification}
    {topics : List String} {reached : ℕ} {outcome : NoticeOutcome}
    {d : Deliveries (NotifiedEvent κ)} (hlisted : Listed topics) (htopics : topics.Nodup)
    (hnotifies : s.deliveries.publisher.loop.notifies = some (service, e))
    (hnotification : toNotification json e = some notification)
    (hhandle : service.canHandle e.payload = true)
    (hstep : Deliveries.Takes s.deliveries (.event outcome.step) d) :
    Notified Listed stackName ⟨d, s.sent ++
      outcome.sent reached (sendNotification stackName notification topics e.id)⟩ := by
  have hsilent := h.silent hclasses hstep
  obtain ⟨hservice, hdelivers⟩ := EventLoop.exists_of_notifies hnotifies
  obtain ⟨hrecord, hsubscriber, hnot⟩ := h.once.of_delivers h.onRecord hdelivers
  have hsublist := outcome.sent_sublist reached
    (sendNotification stackName notification topics e.id)
  have heventId : ∀ m ∈ outcome.sent reached
      (sendNotification stackName notification topics e.id), m.eventId = e.id := by
    intro m hm
    obtain ⟨arn, -, rfl⟩ := List.mem_map.mp (hsublist.subset hm)
    rfl
  refine ⟨hsilent.once, hsilent.onRecord, fun m hm => ?_, ?_⟩
  · rcases List.mem_append.mp hm with hm | hm
    · exact hsilent.sent m hm
    · obtain ⟨-, ⟨new, hnew, -⟩, -⟩ :=
        Deliveries.records_step h.onRecord h.once.coherent hstep
      refine ⟨?_, e.record, ?_, service, hservice, hsubscriber, hhandle, topics, hlisted,
        isFor_of_mem_sendNotification hnotification (hsublist.subset hm)⟩
      · change m.eventId ∈ d.handed.map (·.1)
        rw [Deliveries.handed_of_call (outcome.call_step hdelivers) hstep, heventId m hm]
        simp
      · change e.record ∈ d.publisher.events.records
        rw [hnew]
        exact List.mem_append_left _ hrecord
  · rw [List.map_append]
    refine List.nodup_append'.mpr ⟨h.nodup, ?_, ?_⟩
    · refine List.Nodup.sublist (hsublist.map _) ?_
      rw [sendNotification, List.map_map]
      refine List.Nodup.map ?_ (htopics.filter _)
      intro arn arn' heq
      exact (Prod.mk.inj heq).2
    · -- what was sent before was sent for other records
      intro c hc hc'
      obtain ⟨m, hm, rfl⟩ := List.mem_map.mp hc
      obtain ⟨m', hm', heq⟩ := List.mem_map.mp hc'
      have hid := (h.sent m hm).1
      rw [← (Prod.mk.inj heq).1, heventId m' hm'] at hid
      exact hnot hid

/-- Every step. -/
theorem Notified.step (h : Notified Listed stackName s) (hclasses : s.deliveries.DistinctClasses)
    {a : NoticeStep κ}
    (hlisted : ∀ json topics reached outcome, a = .notification json topics reached outcome →
      Listed topics ∧ topics.Nodup)
    (hstep : Takes stackName s a s') : Notified Listed stackName s' := by
  unfold Takes run at hstep
  cases a with
  | delivery a =>
      simp only at hstep
      split_ifs at hstep with hsilent
      obtain ⟨d, hd, rfl⟩ := Option.map_eq_some_iff.mp hstep
      exact h.silent hclasses hd
  | notification json topics reached outcome =>
      simp only at hstep
      split at hstep
      case h_2 => cases hstep
      case h_1 service e hnotifies =>
        split at hstep
        case h_2 => cases hstep
        case h_1 notification hnotification =>
          split_ifs at hstep with hhandle
          obtain ⟨d, hd, rfl⟩ := Option.map_eq_some_iff.mp hstep
          obtain ⟨htopics, hnodup⟩ := hlisted json topics reached outcome rfl
          exact h.notification hclasses htopics hnodup hnotifies hnotification hhandle hd

/-- What was sent stays sent. -/
lemma sent_prefix {a : NoticeStep κ} (hstep : Takes stackName s a s') : s.sent <+: s'.sent := by
  unfold Takes run at hstep
  cases a with
  | delivery a =>
      simp only at hstep
      split_ifs at hstep
      obtain ⟨d, -, rfl⟩ := Option.map_eq_some_iff.mp hstep
      exact List.prefix_rfl
  | notification json topics reached outcome =>
      simp only at hstep
      split at hstep
      case h_2 => cases hstep
      case h_1 =>
        split at hstep
        case h_2 => cases hstep
        case h_1 =>
          split_ifs at hstep
          obtain ⟨d, -, rfl⟩ := Option.map_eq_some_iff.mp hstep
          exact List.prefix_append _ _

/-- When a call returns, its messages are sent. -/
lemma exists_sent {json : Option String} {topics : List String} {reached : ℕ} {now : Instant}
    (hstep : Takes stackName s (.notification json topics reached (.returns now)) s') :
    ∃ service e notification, s.deliveries.publisher.loop.notifies = some (service, e) ∧
      toNotification json e = some notification ∧
      sendNotification stackName notification topics e.id ⊆ s'.sent := by
  unfold Takes run at hstep
  simp only at hstep
  split at hstep
  case h_2 => cases hstep
  case h_1 service e hnotifies =>
    split at hstep
    case h_2 => cases hstep
    case h_1 notification hnotification =>
      split_ifs at hstep
      obtain ⟨d, -, rfl⟩ := Option.map_eq_some_iff.mp hstep
      exact ⟨service, e, notification, hnotifies, hnotification, List.subset_append_right _ _⟩

/-- **Notifications are sent at most once, where they belong, and in full by a call that returns.**
Let the loop poll and deliver, calls throw between two topics and the process stop and start again
in any order.  Of a record no topic gets two messages; a message goes to a topic named after the
stack and the event, which is one that the service handles; and when the call for a record returns,
each of those topics that SNS listed has its message. -/
theorem notified_at_most_once (stackName : Option String) (as : List (NoticeStep κ))
    (s : Notices κ) (hrun : Run (Takes stackName) init as s)
    (hclasses : ∀ u, Visits (Takes stackName) init as u → u.deliveries.DistinctClasses)
    (htopics : ∀ json topics reached outcome,
      NoticeStep.notification json topics reached outcome ∈ as → topics.Nodup) :
    (s.sent.map fun m => (m.eventId, m.topicArn)).Nodup ∧
      (∀ m ∈ s.sent, ∃ r ∈ s.deliveries.publisher.events.records,
        (∃ service ∈ notificationServices,
          r.subscriber = service.className ∧ service.canHandle r.payload = true) ∧
        ∃ json topics reached outcome,
          NoticeStep.notification json topics reached outcome ∈ as ∧ m.IsFor stackName topics r) ∧
      ∀ u json topics reached now v,
        Passes (Takes stackName) init as u (.notification json topics reached (.returns now)) v →
        ∃ service e notification, u.deliveries.publisher.loop.notifies = some (service, e) ∧
          toNotification json e = some notification ∧
          ∀ arn ∈ topics, IsTopicArn stackName notification.subject arn →
            ⟨e.id, arn, notification.body, notification.subject⟩ ∈ s.sent := by
  let Listed : List String → Prop := fun topics => ∃ json reached outcome,
    NoticeStep.notification json topics reached outcome ∈ as
  have hnotified : Notified Listed stackName s := by
    refine hrun.invariant_of_passes (G := fun u a => u.deliveries.DistinctClasses ∧ a ∈ as) ?_ ?_
      (notified_init Listed stackName)
    · rintro u a v ⟨hdistinct, ha⟩ h hstep
      refine h.step hdistinct ?_ hstep
      rintro json topics reached outcome rfl
      exact ⟨⟨json, reached, outcome, ha⟩, htopics json topics reached outcome ha⟩
    · intro u a v hpass
      exact ⟨hclasses u hpass.visits.1, hpass.mem⟩
  refine ⟨hnotified.nodup, fun m hm => ?_, fun u json topics reached now v hpass => ?_⟩
  · obtain ⟨-, r, hr, service, hservice, hclass, hhandle, topics, hlisted, hfor⟩ :=
      hnotified.sent m hm
    obtain ⟨json, reached, outcome, hmem⟩ := hlisted
    exact ⟨r, hr, ⟨service, hservice, hclass, hhandle⟩, json, topics, reached, outcome, hmem, hfor⟩
  · have hdet : ∀ (u : Notices κ) a t t', Takes stackName u a t → Takes stackName u a t' →
        t = t' :=
      fun _ _ _ _ h h' => Option.some.inj (h.symm.trans h')
    obtain ⟨bs, hrest⟩ := hpass.exists_run hdet hrun
    have hprefix : v.sent <+: s.sent :=
      hrest.preorder (I := fun _ => True) (P := fun _ => True)
        (R := fun u v : Notices κ => u.sent <+: v.sent) (fun _ => List.prefix_rfl)
        (fun _ _ _ => List.IsPrefix.trans) (fun _ _ _ _ _ _ => trivial)
        (fun _ _ _ _ _ => sent_prefix) (fun _ _ => trivial) trivial
    obtain ⟨-, -, -, hstep⟩ := hpass
    obtain ⟨service, e, notification, hnotifies, hnotification, hsent⟩ := exists_sent hstep
    refine ⟨service, e, notification, hnotifies, hnotification, fun arn harn htopic => ?_⟩
    refine hprefix.subset (hsent (List.mem_map_of_mem ?_))
    exact List.mem_filter.mpr ⟨harn, isTopicOf_iff.mpr htopic⟩

/-- The topics of a stack: one for the logs, and one for the registrations. -/
def devTopics : List String :=
  ["arn:aws:sns:ap-southeast-2:1:Dev-LI-Geodesy-SiteLogReceived-1FTL85NEZOFFZ",
    "arn:aws:sns:ap-southeast-2:1:Dev-LI-Geodesy-UserRegistrationReceived-K3F2UQVHG58F"]

/-- A log is uploaded and the loop polls. -/
def devRun : List (NoticeStep Unit) :=
  [.delivery (.event (.subscribe siteLogReceivedNotificationService)),
    .delivery (.event .startEventLoop),
    .delivery (.event (.publish (.siteLogReceived ⟨"ALIC", ""⟩) 1)),
    .delivery (.event (.getPendingEvents [Event.raise 0 (.siteLogReceived ⟨"ALIC", ""⟩)
      "class au.gov.ga.geodesy.domain.service.SiteLogReceivedNotificationService"])),
    .delivery (.event (.published (.ofEpochSecond 1))),
    .notification (some "ALIC") devTopics 0 (.returns (.ofEpochSecond 2)),
    .delivery (.event .saved)]

/-- The topic of the logs has its message. -/
theorem notified_at_most_once_dev :
    ∃ s, Run (Takes (some "Dev-LI-Geodesy")) init devRun s ∧
      s.sent = [⟨0, "arn:aws:sns:ap-southeast-2:1:Dev-LI-Geodesy-SiteLogReceived-1FTL85NEZOFFZ",
        "ALIC", "SiteLogReceived"⟩] ∧
      (s.sent.map fun m => (m.eventId, m.topicArn)).Nodup := by
  have hcomputed : (devRun.foldlM (run (some "Dev-LI-Geodesy")) init).any
      (fun s => decide (s.sent = [⟨0,
        "arn:aws:sns:ap-southeast-2:1:Dev-LI-Geodesy-SiteLogReceived-1FTL85NEZOFFZ",
        "ALIC", "SiteLogReceived"⟩])) = true := by
    decide +kernel
  have hdistinct : (devRun.inits.all fun bs =>
      (bs.foldlM (run (some "Dev-LI-Geodesy")) init).all fun s =>
        decide s.deliveries.DistinctClasses) = true := by
    decide +kernel
  obtain ⟨s, hrun, hsent⟩ := exists_run_of_foldlM hcomputed
  refine ⟨s, hrun, of_decide_eq_true hsent, ?_⟩
  refine (notified_at_most_once (some "Dev-LI-Geodesy") devRun s hrun (fun u hvisits => ?_) ?_).1
  · exact of_decide_eq_true (visits_of_foldlM hdistinct u hvisits)
  · intro json topics reached outcome hmem
    obtain rfl : topics = devTopics := by
      simp only [devRun, List.mem_cons, reduceCtorEq, NoticeStep.notification.injEq,
        List.not_mem_nil, or_false, false_or] at hmem
      exact hmem.2.1
    decide

end Notices

end Geodesy
