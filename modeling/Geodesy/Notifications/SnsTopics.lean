import Geodesy.Library.Backtracking
import Geodesy.Library.Separated

/-!
# The SNS topics of a notification

`SnsNotificationAdapter` publishes a notification to the topics whose names are made of the name of
its own stack, of the subject and of a suffix.  It takes a name apart with a regular expression, and
so it is the last two dashes that count: neither the subject nor the suffix has any, and the name of
the stack may (`groups_eq_some_iff`).  A subject with a dash has no topic at all.
-/

namespace Geodesy

open Backtracking

/-- `Notification`. -/
structure Notification where
  subject : String
  body : String
  deriving DecidableEq, Repr

namespace SnsNotificationAdapter

/-- What `.` does not match. -/
def isLineTerminator (c : Char) : Bool :=
  c = '\n' || c = '\r' || c = '\u0085' || c = '\u2028' || c = '\u2029'

/-- `$`: the end, or what is left is one line terminator. -/
def endOfInput : List Char → Option Unit
  | [] => some ()
  | [c] => if isLineTerminator c then some () else none
  | [c, d] => if c = '\r' ∧ d = '\n' then some () else none
  | _ => none

/-- `-([^-]+)-[^-]+$` -/
def eventPattern : List Char → Option (List Char × List Char × Unit) :=
  literal '-' (greedyPlus (fun c => c ≠ '-')
    (literal '-' (greedyPlus (fun c => c ≠ '-') endOfInput)))

/-- `(.*?)-([^-]+)-[^-]+$` -/
def topicPattern : List Char → Option (List Char × List Char × List Char × Unit) :=
  lazyStar (fun c => !isLineTerminator c) eventPattern

/-- `matcher.find()`, with the two groups: the name of the stack and that of the event. -/
def groups (topic : List Char) : Option (List Char × List Char) :=
  (find topicPattern topic).map fun m => (m.1, m.2.1)

/-- The filter of `snsTopics`.  An index out of bounds is one of the exceptions that it catches. -/
def isTopicOf (stackName : Option String) (notification : Notification) (topicArn : String) :
    Bool :=
  match (Separated.splitTrimmed ':' topicArn.toList)[5]? with
  | none => false
  | some topic =>
    match groups topic with
    | none => false
    | some (stack, event) =>
      (stackName.map fun s => decide (s.toList = stack)).getD false &&
        decide (notification.subject.toList = event)

/-- `SnsNotificationAdapter.snsTopics`, of the topics that `sns.listTopics()` returns. -/
def snsTopics (stackName : Option String) (notification : Notification) (topics : List String) :
    List String :=
  topics.filter (isTopicOf stackName notification)

/-! ## Names of topics -/

/-- The name of the stack, the event and a suffix with a dash between them.  Were there line
terminators in the name, the stack would be looked for after the last one before the dashes. -/
structure IsTopicName (stack event topic : List Char) : Prop where
  exists_eq : ∃ before suffix, topic = before ++ (stack ++ '-' :: (event ++ '-' :: suffix)) ∧
    (∀ c ∈ before.getLast?, isLineTerminator c = true) ∧ suffix ≠ [] ∧ '-' ∉ suffix
  stack_line : ∀ c ∈ stack, isLineTerminator c = false
  event_ne_nil : event ≠ []
  no_dash : '-' ∉ event

lemma no_dash_of_endOfInput {s : List Char} {u : Unit} (h : endOfInput s = some u) : '-' ∉ s := by
  unfold endOfInput at h
  split at h
  case h_1 => simp
  case h_2 c =>
    split_ifs at h with hc
    rintro hmem
    obtain rfl := List.mem_singleton.mp hmem
    exact absurd hc (by decide)
  case h_3 c d =>
    split_ifs at h with hcd
    obtain ⟨rfl, rfl⟩ := hcd
    decide
  case h_4 => cases h

/-- The suffix goes to the end. -/
lemma suffix_eq_some_iff {s xs : List Char} {u : Unit} :
    greedyPlus (fun c => c ≠ '-') endOfInput s = some (xs, u) ↔ xs = s ∧ s ≠ [] ∧ '-' ∉ s := by
  have hwhole : s ≠ [] → '-' ∉ s →
      greedyPlus (fun c => c ≠ '-') endOfInput s = some (s, ()) := by
    intro hne hdash
    have hall : ∀ c ∈ s, decide (c ≠ '-') = true := fun c hc =>
      decide_eq_true fun heq => hdash (heq ▸ hc)
    have hmatch : greedyPlus (fun c => decide (c ≠ '-')) endOfInput (s ++ []) = some (s, ()) :=
      greedyPlus_of_longest hne hall (by simp) rfl
    rwa [List.append_nil] at hmatch
  constructor
  · intro h
    obtain ⟨rest, rfl, hne, hxs, hrest⟩ := exists_of_greedyPlus h
    have hdash : '-' ∉ xs ++ rest := by
      intro hmem
      rcases List.mem_append.mp hmem with hmem | hmem
      · exact absurd (hxs _ hmem) (by decide)
      · exact no_dash_of_endOfInput hrest hmem
    have hne' : xs ++ rest ≠ [] := List.append_ne_nil_of_left_ne_nil hne rest
    rw [hwhole hne' hdash] at h
    exact ⟨(Prod.mk.inj (Option.some.inj h)).1.symm, hne', hdash⟩
  · rintro ⟨rfl, hne, hdash⟩
    exact hwhole hne hdash

lemma eventPattern_eq_some_iff {s event suffix : List Char} {u : Unit} :
    eventPattern s = some (event, suffix, u) ↔ s = '-' :: (event ++ '-' :: suffix) ∧ event ≠ [] ∧
      '-' ∉ event ∧ suffix ≠ [] ∧ '-' ∉ suffix := by
  rw [eventPattern, literal_eq_some_iff]
  constructor
  · rintro ⟨rest, rfl, hmatch⟩
    obtain ⟨rest, rfl, hne, hevent, hmatch⟩ := exists_of_greedyPlus hmatch
    obtain ⟨rest, rfl, hmatch⟩ := literal_eq_some_iff.mp hmatch
    obtain ⟨rfl, hsuffix⟩ := suffix_eq_some_iff.mp hmatch
    exact ⟨rfl, hne, fun hmem => absurd (hevent _ hmem) (by decide), hsuffix⟩
  · rintro ⟨rfl, hne, hevent, hsuffix⟩
    refine ⟨_, rfl, greedyPlus_of_longest hne ?_ (by simp) ?_⟩
    · exact fun c hc => decide_eq_true fun heq => hevent (heq ▸ hc)
    · exact literal_eq_some_iff.mpr ⟨suffix, rfl, suffix_eq_some_iff.mpr ⟨rfl, hsuffix⟩⟩

/-- Where the last two dashes are. -/
lemma IsTopicName.unique {stack stack' event event' suffix suffix' : List Char}
    (h : stack ++ '-' :: (event ++ '-' :: suffix) = stack' ++ '-' :: (event' ++ '-' :: suffix'))
    (hevent : '-' ∉ event) (hevent' : '-' ∉ event') (hsuffix : '-' ∉ suffix)
    (hsuffix' : '-' ∉ suffix') : stack = stack' ∧ event = event' := by
  have hlast : ∀ {xs xs' ys ys' : List Char}, xs ++ '-' :: ys = xs' ++ '-' :: ys' → '-' ∉ ys →
      '-' ∉ ys' → xs = xs' ∧ ys = ys' := by
    intro xs xs' ys ys' heq hys hys'
    rcases List.append_eq_append_iff.mp heq with ⟨zs, rfl, hzs⟩ | ⟨zs, rfl, hzs⟩
    · cases zs with
      | nil => simpa using hzs
      | cons z zs =>
          obtain ⟨rfl, rfl⟩ := List.cons.inj hzs
          exact absurd (by simp) hys
    · cases zs with
      | nil => simpa [eq_comm] using hzs
      | cons z zs =>
          obtain ⟨rfl, rfl⟩ := List.cons.inj hzs
          exact absurd (by simp) hys'
  have hsplit : (stack ++ '-' :: event) ++ '-' :: suffix =
      (stack' ++ '-' :: event') ++ '-' :: suffix' := by simpa using h
  obtain ⟨hbefore, -⟩ := hlast hsplit hsuffix hsuffix'
  exact hlast hbefore hevent hevent'

/-- **What the two groups are.** -/
theorem groups_eq_some_iff {topic stack event : List Char} :
    groups topic = some (stack, event) ↔ IsTopicName stack event topic := by
  constructor
  · intro h
    obtain ⟨⟨stack', event', suffix, u⟩, hfind, heq⟩ := Option.map_eq_some_iff.mp h
    obtain ⟨hstack', hevent'⟩ : stack' = stack ∧ event' = event := Prod.mk.inj heq
    subst hstack' hevent'
    obtain ⟨before, rest, rfl, hmatch, hnone⟩ := find_eq_some_iff.mp hfind
    obtain ⟨rest, rfl, hline, hpattern, -⟩ := lazyStar_eq_some_iff.mp hmatch
    obtain ⟨rfl, hne, hdash, hsuffix⟩ := eventPattern_eq_some_iff.mp hpattern
    refine ⟨⟨before, suffix, rfl, ?_, hsuffix⟩, by simpa using hline, hne, hdash⟩
    -- from a character of the same line the pattern would have matched further to the left
    intro c hc
    obtain ⟨before, rfl⟩ := List.getLast?_eq_some_iff.mp hc
    by_contra hterminator
    have hleft : ∃ m, topicPattern ((c :: stack') ++ '-' :: (event' ++ '-' :: suffix)) = some m :=
      exists_lazyStar (List.forall_mem_cons.mpr ⟨by simpa using hterminator, hline⟩) hpattern
    obtain ⟨m, hm⟩ := hleft
    rw [hnone before _ (by simp) (by simp)] at hm
    cases hm
  · rintro ⟨⟨before, suffix, rfl, hbefore, hsuffix⟩, hline, hne, hdash⟩
    have hpattern : eventPattern ('-' :: (event ++ '-' :: suffix)) = some (event, suffix, ()) :=
      eventPattern_eq_some_iff.mpr ⟨rfl, hne, hdash, hsuffix⟩
    have hline' : ∀ c ∈ stack, (!isLineTerminator c) = true := by simpa using hline
    -- there is one place for the dashes
    have hunique : ∀ {xs rest}, stack ++ '-' :: (event ++ '-' :: suffix) = xs ++ rest →
        ∀ m, eventPattern rest = some m → xs = stack := by
      rintro xs rest hsplit ⟨event', suffix', u⟩ hm
      obtain ⟨rfl, -, hdash', -, hsuffix'⟩ := eventPattern_eq_some_iff.mp hm
      exact (IsTopicName.unique hsplit hdash hdash' hsuffix.2 hsuffix').1.symm
    have hmatch : topicPattern (stack ++ '-' :: (event ++ '-' :: suffix)) =
        some (stack, event, suffix, ()) := by
      refine lazyStar_eq_some_iff.mpr ⟨_, rfl, hline', hpattern, fun xs rest hsplit hlt => ?_⟩
      rw [Option.eq_none_iff_forall_ne_some]
      intro m hm
      rw [hunique hsplit m hm] at hlt
      exact absurd hlt (Nat.lt_irrefl _)
    have hfind : find topicPattern (before ++ (stack ++ '-' :: (event ++ '-' :: suffix))) =
        some (stack, event, suffix, ()) := by
      refine find_eq_some_iff.mpr ⟨before, _, rfl, hmatch, fun xs rest hsplit hlt => ?_⟩
      rw [Option.eq_none_iff_forall_ne_some]
      rintro ⟨stack', event', suffix', u⟩ hm
      obtain ⟨rest, rfl, hline'', hpattern', -⟩ := lazyStar_eq_some_iff.mp hm
      obtain ⟨rfl, -, hdash', -, hsuffix'⟩ := eventPattern_eq_some_iff.mp hpattern'
      rw [← List.append_assoc, ← List.append_assoc] at hsplit
      obtain ⟨hboth, -⟩ := IsTopicName.unique hsplit hdash hdash' hsuffix.2 hsuffix'
      -- the group would begin before the last line terminator and end after it
      rcases List.append_eq_append_iff.mp hboth with ⟨zs, rfl, -⟩ | ⟨zs, rfl, rfl⟩
      · rw [List.length_append] at hlt
        omega
      · obtain ⟨c, zs, rfl⟩ := List.exists_cons_of_ne_nil
          (show zs ≠ [] by rintro rfl; simp at hlt)
        have hlast : (c :: zs).getLast (by simp) ∈ (xs ++ c :: zs).getLast? := by
          rw [List.getLast?_append_of_ne_nil _ (by simp), List.getLast?_eq_some_getLast (by simp)]
          rfl
        have hterminator := hbefore _ hlast
        have hnot := hline'' _ (List.mem_append_left stack (List.getLast_mem (by simp)))
        rw [hterminator] at hnot
        cases hnot
    rw [groups, hfind]
    rfl

/-- The sixth part of the ARN is a name for the stack and the subject. -/
def IsTopicArn (stackName : Option String) (subject arn : String) : Prop :=
  ∃ stack topic, stackName = some stack ∧
    (Separated.splitTrimmed ':' arn.toList)[5]? = some topic ∧
    IsTopicName stack.toList subject.toList topic

lemma isTopicOf_iff {stackName : Option String} {notification : Notification} {arn : String} :
    isTopicOf stackName notification arn = true ↔
      IsTopicArn stackName notification.subject arn := by
  unfold isTopicOf IsTopicArn
  rcases htopic : (Separated.splitTrimmed ':' arn.toList)[5]? with _ | topic
  · simp
  · rcases hgroups : groups topic with _ | ⟨stack, event⟩
    · simp [← groups_eq_some_iff, hgroups]
    · cases stackName with
      | none => simp [hgroups]
      | some name =>
          have hsame : name.toList = stack ∧ notification.subject.toList = event ↔
              stack = name.toList ∧ event = notification.subject.toList :=
            and_congr eq_comm eq_comm
          simpa [← groups_eq_some_iff, hgroups] using hsame

/-- **Where a notification goes.**  To those of the listed topics that are named after the stack and
the subject: the sixth part of the ARN is the name of the stack, the subject and a suffix without a
dash, with dashes between them, and the subject has no dash.  Outside of a stack it goes nowhere. -/
theorem mem_snsTopics_iff (stackName : Option String) (notification : Notification)
    (topics : List String) (arn : String) :
    arn ∈ snsTopics stackName notification topics ↔
      arn ∈ topics ∧ IsTopicArn stackName notification.subject arn := by
  rw [snsTopics, List.mem_filter, isTopicOf_iff]

/-- The name of the comment in the source. -/
example :
    snsTopics (some "Dev-LI-Geodesy") ⟨"SiteLogReceived", "{}"⟩
        ["arn:aws:sns:ap-southeast-2:1:Dev-LI-Geodesy-SiteLogReceived-1FTL85NEZOFFZ",
          "arn:aws:sns:ap-southeast-2:1:Dev-LI-Geodesy-UserRegistrationReceived-K3F2UQVHG58F",
          "arn:aws:sns:ap-southeast-2:1:Test-LI-Geodesy-SiteLogReceived-9XB2ALK8QWE1D"] =
      ["arn:aws:sns:ap-southeast-2:1:Dev-LI-Geodesy-SiteLogReceived-1FTL85NEZOFFZ"] := by
  decide +kernel

end SnsNotificationAdapter

end Geodesy
