import Storyhook.Daemon.FeedReading

/-! What a subscriber hears of the changes sent, over every connection it makes. -/

namespace Storyhook.Daemon

open Storyhook.Library

def OneLine (text : List Char) : Prop := ∀ c ∈ text, c ≠ '\n' ∧ c ≠ '\r'

/-- A change that the feed can carry: its message has a size that fits, and a slug is read back from
its one line of JSON. -/
structure Sendable (json : SlugJson) (change : Change) : Prop where
  fits : Utf8.size (change.toSse json) < 2 ^ 64
  readBack : ∀ slug, change = .project slug → json.repoId (json.render slug) = some slug ∧
    OneLine (json.render slug)

theorem oneLine_of_all (text : List Char)
    (all : text.all (fun c => c != '\n' && c != '\r') = true) : OneLine text := by
  intro c member
  simpa using List.all_eq_true.mp all c member

theorem withoutEnding_line (text : List Char) (oneLine : OneLine text) :
    Domain.ConflictSmoothing.withoutEnding (text ++ ['\n']) = text := by
  rw [Domain.ConflictSmoothing.withoutEnding, (Text.isSuffixOf?_eq_some _ _ _).mpr rfl]
  refine Text.stripSuffix_eq_self _ _ fun suffix => ?_
  have member : '\r' ∈ text := suffix.subset List.mem_cons_self
  exact (oneLine '\r' member).2 rfl

theorem OneLine.complete (text : List Char) (oneLine : OneLine text) :
    Lines.Complete (text ++ ['\n']) :=
  ⟨text, rfl, fun member => (oneLine '\n' member).1 rfl⟩

theorem sseMessage_lines (name : String) (data : List Char) :
    sseMessage name data = [("event: ".toList ++ name.toList) ++ ['\n'],
      ("data: ".toList ++ data) ++ ['\n'], ['\n']].flatten ++ [] := by
  have label : "\ndata: ".toList = ['\n'] ++ "data: ".toList := by decide +kernel
  have ending : "\n\n".toList = ['\n'] ++ ['\n'] := by decide +kernel
  unfold sseMessage
  rw [label, ending]
  generalize "event: ".toList = event
  generalize "data: ".toList = datum
  simp only [List.flatten_cons, List.flatten_nil, List.append_nil, List.append_assoc]

theorem fields_message (name : String) (data : List Char)
    (named : OneLine ("event: ".toList ++ name.toList))
    (held : OneLine ("data: ".toList ++ data)) :
    (Domain.ConflictSmoothing.lines (sseMessage name data)).foldl SseFields.line (none, none) =
      (some name.toList, some data) := by
  have parts := sseMessage_lines name data
  have complete : ∀ line ∈ [("event: ".toList ++ name.toList) ++ ['\n'],
      ("data: ".toList ++ data) ++ ['\n'], ['\n']], Lines.Complete line := by
    simp only [List.forall_mem_cons]
    exact ⟨named.complete, held.complete, ⟨[], rfl, by simp⟩, by simp⟩
  rw [parts, Domain.ConflictSmoothing.lines, Lines.splitInclusive_flatten _ _ complete]
  simp only [List.map_append, List.map_cons, List.map_nil, withoutEnding_line _ named,
    withoutEnding_line _ held, List.foldl_append, List.foldl_cons, List.foldl_nil,
    Lines.splitInclusive]
  have event : SseFields.line (none, none) ("event: ".toList ++ name.toList) =
      (some name.toList, none) := by
    rw [SseFields.line, (Text.isPrefixOf?_eq_some _ _ _).mpr rfl]
  have datum : SseFields.line (some name.toList, none) ("data: ".toList ++ data) =
      (some name.toList, some data) := by
    have event : "event: ".toList = 'e' :: "vent: ".toList := by decide +kernel
    have label : "data: ".toList = 'd' :: "ata: ".toList := by decide +kernel
    have other : "event: ".toList.isPrefixOf? ("data: ".toList ++ data) = none := by
      rw [event, label]
      rfl
    rw [SseFields.line, other, (Text.isPrefixOf?_eq_some _ _ _).mpr rfl]
  rw [event, datum]
  rfl

theorem fromSse_toSse (json : SlugJson) (change : Change) (sendable : Sendable json change) :
    Change.fromSse json (change.toSse json) = some change := by
  have bare : OneLine ("data: ".toList ++ "\x7b\x7d".toList) := oneLine_of_all _ (by decide +kernel)
  have named : ∀ name ∈ ["ping", "repos-changed", "repo-changed", "resync", "reload"],
      OneLine ("event: ".toList ++ name.toList) := by
    simp only [List.forall_mem_cons]
    exact ⟨oneLine_of_all _ (by decide +kernel), oneLine_of_all _ (by decide +kernel),
      oneLine_of_all _ (by decide +kernel), oneLine_of_all _ (by decide +kernel),
      oneLine_of_all _ (by decide +kernel), by simp⟩
  cases change with
  | project slug =>
      obtain ⟨read, clear⟩ := sendable.readBack slug rfl
      have held : OneLine ("data: ".toList ++ json.render slug) := by
        intro c member
        rcases List.mem_append.mp member with label | inside
        · exact bare c (List.mem_append_left _ label)
        · exact clear c inside
      rw [Change.toSse, Change.fromSse, fields_message _ _ (named _ (by simp)) held]
      simp only [Option.map_some, String.ofList_toList, Option.bind_some, read]
  | ping =>
      rw [Change.toSse, Change.fromSse, fields_message _ _ (named _ (by simp)) bare]
      simp only [Option.map_some, String.ofList_toList]
  | catalog =>
      rw [Change.toSse, Change.fromSse, fields_message _ _ (named _ (by simp)) bare]
      simp only [Option.map_some, String.ofList_toList]
  | resync =>
      rw [Change.toSse, Change.fromSse, fields_message _ _ (named _ (by simp)) bare]
      simp only [Option.map_some, String.ofList_toList]
  | reload =>
      rw [Change.toSse, Change.fromSse, fields_message _ _ (named _ (by simp)) bare]
      simp only [Option.map_some, String.ofList_toList]

/-- What is to be told of the changes sent on a connection: no ping, and nothing from a reload on. -/
def told (changes : List Change) : List Change :=
  (changes.takeWhile (· != .reload)).filter (· != .ping)

def Turn.redial : Turn → Redial
  | .expired => none
  | .stale redial => redial
  | .read redial => redial

/-- Whether a turn tries for a new connection: it has none, or its own failed, fell silent or was
told to reload. -/
def Subscriber.redials (lossy : List UInt8 → List Char) (json : SlugJson)
    (subscriber : Subscriber) :
    Turn → Bool
  | .expired => false
  | .stale _ => true
  | .read _ =>
      match subscriber with
      | none => true
      | some (conn, arrivals) =>
          match conn.advance lossy arrivals with
          | (.ok (some text), _, _) => Change.fromSse json text == some .reload
          | (.ok none, _, _) => false
          | (.error _, _, _) => true

def Subscriber.connects (lossy : List UInt8 → List Char) (json : SlugJson) (subscriber : Subscriber)
    (turn : Turn) : Bool :=
  subscriber.redials lossy json turn && (reconnectAndResync lossy turn.redial).1.isSome

/-- What is sent on the connections that a subscriber makes, of what each turn would have sent on
one. -/
def Subscriber.connections (lossy : List UInt8 → List Char) (json : SlugJson) :
    Subscriber → List Turn → List (List Change) → List (List Change)
  | subscriber, turn :: turns, changes :: sent =>
      let later := Subscriber.connections lossy json (subscriber.turn lossy json turn).1 turns sent
      if subscriber.connects lossy json turn then changes :: later else later
  | _, _, _ => []

/-- These are the changes sent on a connection, of which it carries what arrives of the stream. -/
def Carries (json : SlugJson) (changes : List Change) (arrivals : List (Arrival UInt8)) : Prop :=
  ∃ lost, arrived arrivals ++ lost = written (connectedFrame :: changes.map (Change.toSse json))

def Following (json : SlugJson) (changes : List Change) (lost : List UInt8) : Subscriber → Prop
  | none => True
  | some (conn, arrivals) =>
      Due conn (changes.map (Change.toSse json)) (arrived arrivals ++ lost)

theorem messages_fit (json : SlugJson) (changes : List Change)
    (sendable : ∀ change ∈ changes, Sendable json change) :
    ∀ text ∈ changes.map (Change.toSse json), Utf8.size text < 2 ^ 64 := by
  intro text member
  obtain ⟨change, sent, rfl⟩ := List.mem_map.mp member
  exact (sendable change sent).fits

theorem told_cons (change : Change) (others : List Change) (goes : change ≠ .reload) :
    told (change :: others) =
      (if change = .ping then none else some change).toList ++ told others := by
  rw [told, List.takeWhile_cons_of_pos (by simpa using goes), List.filter_cons]
  by_cases ping : change = .ping
  · simp [ping, told]
  · simp [ping, told]

section Polls

variable (lossy : List UInt8 → List Char)
  (decodes : ∀ text, lossy (Utf8.bytes text) = text) (json : SlugJson)

include decodes

theorem openFeed_due (budget : Nat) (conn : Connection) (arrivals rest : List (Arrival UInt8))
    (first : List Char) (texts : List (List Char)) (lost : List UInt8) (connected : Connection)
    (due : Due conn (first :: texts) (arrived arrivals ++ lost))
    (fits : ∀ text ∈ first :: texts, Utf8.size text < 2 ^ 64)
    (opened : Connection.openFeed lossy budget conn arrivals = some (connected, rest)) :
    Due connected texts (arrived rest ++ lost) ∧ rest.length < arrivals.length := by
  induction budget generalizing conn arrivals with
  | zero => cases opened
  | succ budget further =>
      rw [Connection.openFeed] at opened
      have advanced := advance_due lossy decodes conn _ _ lost arrivals due rfl fits
      split at opened
      · next text next later read =>
          rw [read] at advanced
          cases advanced with
          | frame _ others _ _ split remains shorter =>
              cases split
              cases opened
              exact ⟨remains, shorter⟩
      · next next later read =>
          rw [read] at advanced
          cases advanced with
          | waits _ _ remains shorter =>
              obtain ⟨ends, before⟩ := further next later remains opened
              exact ⟨ends, Nat.lt_trans before shorter⟩
      · cases opened

theorem reconnect_cases (changes : List Change) (redial : Redial)
    (carried : ∀ reads ∈ redial, Carries json changes reads.2)
    (sendable : ∀ change ∈ changes, Sendable json change) :
    reconnectAndResync lossy redial = (none, none) ∨
      ∃ connected lost, reconnectAndResync lossy redial = (some connected, some .resync) ∧
        Following json changes lost (some connected) := by
  cases redial with
  | none => exact Or.inl rfl
  | some reads =>
      obtain ⟨lost, arrives⟩ := carried reads rfl
      rw [reconnectAndResync, Option.bind_some]
      cases opened : Connection.openFeed lossy reads.1 .fresh reads.2 with
      | none => exact Or.inl rfl
      | some connected =>
          refine Or.inr ⟨connected, lost, rfl, (openFeed_due lossy decodes reads.1 .fresh reads.2
            connected.2 connectedFrame _ lost connected.1 ?_ ?_ opened).1⟩
          · rw [arrives]
            exact Due.fresh _
          · exact List.forall_mem_cons.mpr
              ⟨by decide +kernel, messages_fit json changes sendable⟩

theorem turn_cases (changes : List Change) (lost : List UInt8) (subscriber : Subscriber)
    (turn : Turn) (following : Following json changes lost subscriber)
    (sendable : ∀ change ∈ changes, Sendable json change) :
    (subscriber.redials lossy json turn = true ∧
      subscriber.turn lossy json turn = reconnectAndResync lossy turn.redial) ∨
    subscriber.redials lossy json turn = false ∧
      (((subscriber.turn lossy json turn).2 = none ∧
        Following json changes lost (subscriber.turn lossy json turn).1) ∨
      ∃ change others, changes = change :: others ∧ change ≠ .reload ∧
        Following json others lost (subscriber.turn lossy json turn).1 ∧
        (subscriber.turn lossy json turn).2 = if change = .ping then none else some change) := by
  cases turn with
  | expired => exact Or.inr ⟨rfl, Or.inl ⟨rfl, following⟩⟩
  | stale redial => exact Or.inl ⟨rfl, rfl⟩
  | read redial =>
      cases subscriber with
      | none => exact Or.inl ⟨rfl, rfl⟩
      | some reading =>
          obtain ⟨conn, arrivals⟩ := reading
          have advanced := advance_due lossy decodes conn _ _ lost arrivals following rfl
            (messages_fit json changes sendable)
          simp only [Subscriber.turn, Subscriber.redials, Turn.redial]
          generalize Connection.advance lossy conn arrivals = advance at advanced
          cases advanced with
          | fails error conn torn => exact Or.inl ⟨rfl, rfl⟩
          | waits conn rest due shorter => exact Or.inr ⟨rfl, Or.inl ⟨rfl, due⟩⟩
          | frame text others conn rest first due shorter =>
              obtain ⟨change, later, rfl, rfl, rfl⟩ := List.map_eq_cons_iff.mp first
              have read := fromSse_toSse json change (sendable change List.mem_cons_self)
              simp only [read]
              cases change with
              | reload => exact Or.inl ⟨rfl, rfl⟩
              | ping => exact Or.inr ⟨rfl, Or.inr ⟨.ping, later, rfl, by decide, due, rfl⟩⟩
              | project slug => exact Or.inr ⟨rfl, Or.inr ⟨.project slug, later, rfl,
                by simp, due, rfl⟩⟩
              | catalog => exact Or.inr ⟨rfl, Or.inr ⟨.catalog, later, rfl, by decide, due, rfl⟩⟩
              | resync => exact Or.inr ⟨rfl, Or.inr ⟨.resync, later, rfl, by decide, due, rfl⟩⟩

theorem poll_following (turns : List Turn) (sent : List (List Change)) (changes : List Change)
    (lost : List UInt8) (subscriber : Subscriber)
    (following : Following json changes lost subscriber)
    (sendable : ∀ change ∈ changes, Sendable json change)
    (carried : List.Forall₂ (fun turn changes =>
      ∀ reads ∈ Turn.redial turn, Carries json changes reads.2) turns sent)
    (allSendable : ∀ changes ∈ sent, ∀ change ∈ changes, Sendable json change) :
    ∃ first segments, first <+: told changes ∧
      List.Forall₂ (fun changes segment => segment <+: told changes)
        (subscriber.connections lossy json turns sent) segments ∧
      (Subscriber.poll lossy json subscriber turns).2 =
        first ++ segments.flatMap (Change.resync :: ·) := by
  induction carried generalizing changes lost subscriber with
  | nil => exact ⟨[], [], List.nil_prefix, .nil, rfl⟩
  | @cons turn dialled turns sent carries carried further =>
      have others := fun changes member => allSendable changes (List.mem_cons_of_mem _ member)
      have dialledSendable := allSendable dialled List.mem_cons_self
      rw [Subscriber.poll, Subscriber.connections, Subscriber.connects]
      rcases turn_cases lossy decodes json changes lost subscriber turn following sendable with
        ⟨tries, redials⟩ | ⟨stays, ⟨silent, follows⟩ | ⟨change, later, rfl, goes,
          follows, answered⟩⟩
      · rw [tries, redials]
        rcases reconnect_cases lossy decodes json dialled turn.redial carries dialledSendable with
          failed | ⟨connected, fresh, made, starts⟩
        · obtain ⟨first, segments, begins, matched, answers⟩ :=
            further [] [] none trivial (by simp) others
          obtain rfl := List.prefix_nil.mp begins
          refine ⟨[], segments, List.nil_prefix, ?_, ?_⟩
          · rw [failed]
            exact matched
          · rw [failed]
            exact answers
        · obtain ⟨first, segments, begins, matched, answers⟩ :=
            further dialled fresh (some connected) starts dialledSendable others
          refine ⟨[], first :: segments, List.nil_prefix, ?_, ?_⟩
          · rw [made]
            exact .cons begins matched
          · rw [made]
            simp only [answers, Option.toList_some, List.flatMap_cons, List.nil_append,
              List.cons_append]
      · obtain ⟨first, segments, begins, matched, answers⟩ :=
          further changes lost _ follows sendable others
        refine ⟨first, segments, begins, ?_, by simp [silent, answers]⟩
        rw [stays]
        exact matched
      · obtain ⟨first, segments, begins, matched, answers⟩ :=
          further later lost _ follows
            (fun change member => sendable change (List.mem_cons_of_mem _ member)) others
        refine ⟨(if change = .ping then none else some change).toList ++ first,
          segments, ?_, ?_, ?_⟩
        · rw [told_cons change later goes]
          exact (List.prefix_append_right_inj _).mpr begins
        · rw [stays]
          exact matched
        · simp only [answered, answers, List.append_assoc]

theorem poll_drains (turns : List Turn) (conn : Connection) (arrivals : List (Arrival UInt8))
    (changes : List Change) (lost : List UInt8)
    (following : Following json changes lost (some (conn, arrivals)))
    (sendable : ∀ change ∈ changes, Sendable json change)
    (reads : ∀ turn ∈ turns, ∃ redial, turn = .read redial)
    (enough : arrivals.length < turns.length) :
    ∃ count rest, (Subscriber.poll lossy json (some (conn, arrivals)) turns).2 =
        told (changes.take count) ++ rest ∧
      (changes[count]? = some .reload ∨
        Torn ((changes.drop count).map (Change.toSse json)) lost) := by
  induction turns generalizing conn arrivals changes with
  | nil => cases enough
  | cons turn turns further =>
      obtain ⟨redial, rfl⟩ := reads turn List.mem_cons_self
      have later := fun turn member => reads turn (List.mem_cons_of_mem _ member)
      have advanced := advance_due lossy decodes conn _ _ lost arrivals following rfl
        (messages_fit json changes sendable)
      rw [List.length_cons] at enough
      simp only [Subscriber.poll, Subscriber.turn]
      generalize Connection.advance lossy conn arrivals = advance at advanced
      cases advanced with
      | fails error conn torn => exact ⟨0, _, rfl, Or.inr torn⟩
      | waits conn rest due shorter =>
          obtain ⟨count, after, answers, ends⟩ :=
            further conn rest changes due sendable later (by omega)
          exact ⟨count, after, answers, ends⟩
      | frame text others conn rest first due shorter =>
          obtain ⟨change, others, rfl, rfl, rfl⟩ := List.map_eq_cons_iff.mp first
          have read := fromSse_toSse json change (sendable change List.mem_cons_self)
          by_cases reloads : change = .reload
          · exact ⟨0, _, rfl, Or.inl (by rw [reloads]; rfl)⟩
          · obtain ⟨count, after, answers, ends⟩ := further conn rest others due
              (fun change member => sendable change (List.mem_cons_of_mem _ member)) later
              (by omega)
            refine ⟨count + 1, after, ?_, ends⟩
            rw [List.take_succ_cons, told_cons change _ reloads, List.append_assoc, ← answers]
            simp only [read]
            cases change with
            | reload => exact absurd rfl reloads
            | ping => rfl
            | project slug => rfl
            | catalog => rfl
            | resync => rfl

end Polls

def plainSlugJson : SlugJson where
  render slug := "\x7b\"repo_id\":\"".toList ++ slug.toList ++ "\"\x7d".toList
  repoId data :=
    ("\x7b\"repo_id\":\"".toList.isPrefixOf? data).map fun rest =>
      String.ofList (rest.take (rest.length - 2))

theorem plainSlugJson_sendable (change : Change)
    (plain : change ∈ [.project "a", .catalog]) : Sendable plainSlugJson change := by
  rcases List.mem_pair.mp plain with rfl | rfl
  · refine ⟨by decide +kernel, ?_⟩
    rintro slug ⟨⟩
    exact ⟨by decide +kernel, oneLine_of_all _ (by decide +kernel)⟩
  · exact ⟨by decide +kernel, fun slug other => by cases other⟩

def decodeOrNothing (bytes : List UInt8) : List Char := (fromUtf8 bytes).getD []

theorem decodeOrNothing_bytes (text : List Char) : decodeOrNothing (Utf8.bytes text) = text := by
  rw [decodeOrNothing, fromUtf8_bytes, Option.getD_some]

/-- The stream of two changes, with a wait within the first message and cut within the second. -/
def brokenOff : List (Arrival UInt8) :=
  let stream := written (connectedFrame :: [Change.project "a", .catalog].map
    (Change.toSse plainSlugJson))
  (stream.take 50).map .unit ++ .quiet :: ((stream.drop 50).take 50).map .unit

theorem brokenOff_carried : arrived brokenOff ++ (written (connectedFrame ::
    [Change.project "a", .catalog].map (Change.toSse plainSlugJson))).drop 100 =
      written (connectedFrame :: [Change.project "a", .catalog].map
        (Change.toSse plainSlugJson)) := by
  decide +kernel

section Feeds

variable (lossy : List UInt8 → List Char)
  (decodes : ∀ text, lossy (Utf8.bytes text) = text) (json : SlugJson)

include decodes

/-- Over any turns, what a subscriber hears is a resync for each connection it makes, and after it
the first of the changes sent on that one: what it misses, it misses at the end of a connection. -/
theorem feed_polled (turns : List Turn) (sent : List (List Change))
    (carried : List.Forall₂ (fun turn changes =>
      ∀ reads ∈ Turn.redial turn, Carries json changes reads.2) turns sent)
    (sendable : ∀ changes ∈ sent, ∀ change ∈ changes, Sendable json change) :
    ∃ segments, List.Forall₂ (fun changes segment => segment <+: told changes)
        (Subscriber.connections lossy json none turns sent) segments ∧
      (Subscriber.poll lossy json none turns).2 = segments.flatMap (Change.resync :: ·) := by
  obtain ⟨first, segments, begins, matched, answers⟩ :=
    poll_following lossy decodes json turns sent [] [] none trivial (by simp) carried sendable
  obtain rfl := List.prefix_nil.mp begins
  exact ⟨segments, matched, answers⟩

/-- A subscriber that connects and reads a connection to its end hears every change sent on it, up
to a reload or the first one whose message did not arrive whole. -/
theorem feed_drained (turns : List Turn) (redial : Redial) (reads : Nat × List (Arrival UInt8))
    (changes : List Change) (lost : List UInt8) (connected : Connection × List (Arrival UInt8))
    (dialled : redial = some reads)
    (opened : Connection.openFeed lossy reads.1 .fresh reads.2 = some connected)
    (carried : arrived reads.2 ++ lost =
      written (connectedFrame :: changes.map (Change.toSse json)))
    (sendable : ∀ change ∈ changes, Sendable json change)
    (reading : ∀ turn ∈ turns, ∃ redial, turn = .read redial)
    (enough : reads.2.length ≤ turns.length) :
    ∃ count rest, (Subscriber.poll lossy json none (.read redial :: turns)).2 =
        .resync :: told (changes.take count) ++ rest ∧
      (changes[count]? = some .reload ∨
        Torn ((changes.drop count).map (Change.toSse json)) lost) := by
  obtain ⟨due, shorter⟩ := openFeed_due lossy decodes reads.1 .fresh reads.2 connected.2
    connectedFrame _ lost connected.1 (carried ▸ Due.fresh _)
    (List.forall_mem_cons.mpr ⟨by decide +kernel, messages_fit json changes sendable⟩) opened
  obtain ⟨count, rest, answers, ends⟩ := poll_drains lossy decodes json turns connected.1
    connected.2 changes lost due sendable reading (by omega)
  refine ⟨count, rest, ?_, ends⟩
  rw [Subscriber.poll]
  simp only [Subscriber.turn, reconnectAndResync, dialled, Option.bind_some, opened, answers]
  rfl

end Feeds

theorem feed_polled_broken_off :
    let turns : List Turn := [.read (some (3, brokenOff)), .read none, .read none,
      .read none, .read (some (3, brokenOff))]
    let sent : List (List Change) := [[.project "a", .catalog], [], [], [], [.project "a", .catalog]]
    (∃ segments, List.Forall₂ (fun changes segment => segment <+: told changes)
        (Subscriber.connections decodeOrNothing plainSlugJson none turns sent) segments ∧
      (Subscriber.poll decodeOrNothing plainSlugJson none turns).2 =
        segments.flatMap (Change.resync :: ·)) ∧
      Subscriber.connections decodeOrNothing plainSlugJson none turns sent =
        [[.project "a", .catalog], [.project "a", .catalog]] ∧
      (Subscriber.poll decodeOrNothing plainSlugJson none turns).2 =
        [.resync, .project "a", .resync] := by
  refine ⟨feed_polled decodeOrNothing decodeOrNothing_bytes plainSlugJson _ _ ?_ ?_,
    by decide +kernel, by decide +kernel⟩
  · have carries : Carries plainSlugJson [.project "a", .catalog] brokenOff :=
      ⟨_, brokenOff_carried⟩
    have absent : ∀ reads ∈ Turn.redial (.read none), Carries plainSlugJson [] reads.2 :=
      by simp [Turn.redial]
    have dialled : ∀ reads ∈ Turn.redial (.read (some (3, brokenOff))),
        Carries plainSlugJson [.project "a", .catalog] reads.2 := by
      rintro reads ⟨⟩
      exact carries
    exact .cons dialled (.cons absent (.cons absent (.cons absent (.cons dialled .nil))))
  · intro changes member change sent
    refine plainSlugJson_sendable change ?_
    simp only [List.mem_cons, List.not_mem_nil, or_false] at member
    rcases member with rfl | rfl | rfl | rfl | rfl
    · exact sent
    · cases sent
    · cases sent
    · cases sent
    · exact sent

theorem feed_drained_broken_off :
    ∃ count rest, (Subscriber.poll decodeOrNothing plainSlugJson none
        (.read (some (3, brokenOff)) :: List.replicate 101 (.read none))).2 =
          .resync :: told ([Change.project "a", .catalog].take count) ++ rest ∧
        ([Change.project "a", .catalog][count]? = some .reload ∨
          Torn (([Change.project "a", .catalog].drop count).map (Change.toSse plainSlugJson))
            ((written (connectedFrame :: [Change.project "a", .catalog].map
              (Change.toSse plainSlugJson))).drop 100)) := by
  obtain ⟨connected, opened⟩ := Option.isSome_iff_exists.mp (show
    (Connection.openFeed decodeOrNothing 3 .fresh brokenOff).isSome = true by decide +kernel)
  refine feed_drained decodeOrNothing decodeOrNothing_bytes plainSlugJson
    (List.replicate 101 (.read none)) (some (3, brokenOff)) (3, brokenOff) _ _ connected rfl opened
    brokenOff_carried plainSlugJson_sendable ?_ (by decide +kernel)
  intro turn member
  exact ⟨none, List.eq_of_mem_replicate member⟩

end Storyhook.Daemon
