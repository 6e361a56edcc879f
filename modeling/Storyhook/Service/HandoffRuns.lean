import Storyhook.Service.HandoffSteps

/-! What a whole run of continuations keeps: no resume is replayed, no feedback is given twice, and
no submission passes without its review. -/

namespace Storyhook.Service.Handoffs

open Storyhook.Store
open Library Library.Outcome

/-- A project without continuations. -/
def untouched (idPrefix : String) : Project := ⟨idPrefix, [], .idle, []⟩

variable (idPrefix : String)

theorem untouched_sound : Sound (untouched idPrefix) where
  ids := List.nodup_nil
  alone := fun _ member => absurd member List.not_mem_nil
  context := fun _ member => absurd member List.not_mem_nil
  held := trivial
  retries := fun _ member => absurd member List.not_mem_nil

theorem reached_sound (before : List HandoffAct) (project : Project)
    (reached : (untouched idPrefix).run before = some project) : Sound project :=
  run_sound (untouched idPrefix) project before (untouched_sound idPrefix) reached

/-! ### Resumes -/

/-- The resume that an act begins for the story: its attempt is written. -/
def launches (story : StoryNo) (project : Project) (action : HandoffAct) : Nat :=
  match action, project.act action with
  | .intended _, some after =>
      match after.monitor with
      | .resuming record _ => if record.story = story then 1 else 0
      | _ => 0
  | _, _ => 0

/-- What may be followed by a resume of the story: a new request, an explicit retry, and a resume
whose receiving session is valid. -/
def pays (story : StoryNo) (project : Project) (action : HandoffAct) : Nat :=
  match action with
  | .requested _ own _ _ _ _ =>
      if own = story ∧ (project.act action).any (project.rows.length < ·.rows.length) then 1 else 0
  | .retried record _ => if record.story = story then 1 else 0
  | .saved =>
      match project.monitor with
      | .saving record _ => if record.story = story ∧ record.status = .awaitingAck then 1 else 0
      | _ => 0
  | _ => 0

def waits (story : StoryNo) (row : Continuation) : Bool :=
  row.story == story && (row.status == .pending || row.status == .awaitingAck)

/-- Whether a continuation of the story is to be seen to. -/
def credit (story : StoryNo) (project : Project) : Nat := (project.rows.any (waits story)).toNat

section Resumes

variable (story : StoryNo)

theorem waits_iff (row : Continuation) : waits story row = true ↔ row.story = story ∧ Waiting row := by
  simp only [waits, Waiting, Bool.and_eq_true, Bool.or_eq_true, beq_iff_eq]

theorem credit_le (project : Project) : credit story project ≤ 1 := Bool.toNat_le _

theorem credit_of_mem (project : Project) (row : Continuation) (member : row ∈ project.rows)
    (own : row.story = story) (waiting : Waiting row) : credit story project = 1 := by
  rw [credit, List.any_eq_true.mpr ⟨row, member, (waits_iff story row).mpr ⟨own, waiting⟩⟩]
  rfl

theorem credit_none (project : Project)
    (none : ∀ row ∈ project.rows, row.story = story → ¬Waiting row) : credit story project = 0 := by
  rw [credit, List.any_eq_false.mpr]
  · rfl
  · intro row member waits
    obtain ⟨own, waiting⟩ := (waits_iff story row).mp waits
    exact none row member own waiting

theorem added_pays (project after : Project) (action : HandoffAct) (record : Continuation)
    (acted : project.act action = some after) (rows : after.rows = project.rows ++ [record])
    (new : Added project.rows action record) : pays record.story project action = 1 := by
  obtain ⟨read, now, capture, rfl⟩ := new.requested
  have grew : (project.act (.requested read record.story record.id now record.handoff
      capture)).any (project.rows.length < ·.rows.length) = true := by
    rw [acted, Option.any_some, rows, List.length_append, List.length_singleton]
    exact decide_eq_true (Nat.lt_succ_self _)
  exact if_pos ⟨rfl, grew⟩

theorem turned_pays (project : Project) (action : HandoffAct) (row next : Continuation)
    (turned : Turned project action row next) (waiting : Waiting next) :
    Waiting row ∨ pays row.story project action = 1 := by
  have other (status : ContinuationStatus) (is : next.status = status) (done : status ≠ .pending)
      (seen : status ≠ .awaitingAck) : Waiting row ∨ pays row.story project action = 1 :=
    (waiting.elim (fun pending => done (is.symm.trans pending))
      fun awaiting => seen (is.symm.trans awaiting)).elim
  cases turned with
  | noted _ _ _ _ _ _ status =>
      rw [Waiting, status] at waiting
      exact Or.inl waiting
  | acked _ _ _ _ _ _ _ _ _ status => exact other _ status (by decide) (by decide)
  | retried => exact Or.inr (if_pos rfl)
  | replaced _ _ _ _ _ status => exact other _ status (by decide) (by decide)
  | rebound _ _ _ _ status =>
      rw [Waiting, status] at waiting
      exact Or.inl waiting
  | retired _ _ _ status => exact other _ status (by decide) (by decide)
  | recovered _ _ _ _ _ status => exact other _ status (by decide) (by decide)
  | stopped _ _ _ _ _ _ waited => exact Or.inl waited
  | intended _ _ _ _ waited => exact Or.inl waited
  | saved _ _ record rest monitor named status how =>
      rcases how with ⟨attention, -⟩ | ⟨awaiting, -⟩
      · exact other _ (status.trans attention) (by decide) (by decide)
      · refine Or.inr ?_
        simp only [pays, monitor]
        exact if_pos ⟨named, awaiting⟩

theorem credit_paid (project after : Project) (action : HandoffAct)
    (acted : project.act action = some after) (change : Change project action after.rows) :
    credit story after ≤ pays story project action + credit story project := by
  by_cases some : ∃ next ∈ after.rows, next.story = story ∧ Waiting next
  · obtain ⟨next, listed, own, waiting⟩ := some
    have earned (before : credit story project = 1 ∨ pays story project action = 1) :
        credit story after ≤ pays story project action + credit story project := by
      have one := credit_le story after
      omega
    refine earned ?_
    cases change with
    | added record rows new =>
        rw [rows] at listed
        rcases List.mem_append.mp listed with earlier | last
        · exact Or.inl (credit_of_mem story project next earlier own waiting)
        · rw [List.mem_singleton.mp last] at own
          exact Or.inr (own ▸ added_pays project after action record acted rows new)
    | turned turn rows turns =>
        rw [rows] at listed
        obtain ⟨row, member, rfl⟩ := List.mem_map.mp listed
        rcases turns row member with still | turned
        · rw [still] at own waiting
          exact Or.inl (credit_of_mem story project row member own waiting)
        · have same : row.story = story := turned.story.symm.trans own
          rcases turned_pays project action row _ turned.how waiting with waited | paid
          · exact Or.inl (credit_of_mem story project row member same waited)
          · exact Or.inr (same ▸ paid)
  · rw [credit_none story after fun row member own waiting => some ⟨row, member, own, waiting⟩]
    exact Nat.zero_le _

/-- A resume that begins was waited for, and its attempt is in the table. -/
structure Launched (project after : Project) (record : Continuation) : Prop where
  waited : ∃ row ∈ project.rows, row.story = record.story ∧ Waiting row
  written : record ∈ after.rows
  attempting : record.status = .attempting

theorem launch_ok (project after : Project) (sound : Sound project) (eligible : Bool)
    (acted : project.act (.intended eligible) = some after) (record : Continuation) (rest : Rows)
    (resuming : after.monitor = .resuming record rest) : Launched project after record := by
  have stepped : project.step project.monitor (.intended eligible) = some after := acted
  have held := sound.held
  cases monitor : project.monitor with
  | launching base left =>
      rw [monitor] at stepped held
      cases eligible with
      | false =>
          cases stepped
          cases resuming
      | true =>
          obtain rfl := Option.some.inj stepped
          obtain ⟨⟨copy, waiting⟩, -⟩ := held
          unfold Project.persist at resuming ⊢
          split at resuming
          · next rows next saved =>
              cases resuming
              obtain ⟨put, row, member, named, owned, revision, after⟩ :=
                save_ok project.rows sound.ids _ rows record saved
              have equal := copied project.rows sound.ids base row copy member named revision
              subst equal
              rw [put] at after ⊢
              refine ⟨⟨row, member, rfl, waiting⟩, ?_, rfl⟩
              rw [after]
              exact List.mem_map.mpr ⟨row, member, if_pos rfl⟩
          · cases resuming
  | _ =>
      rw [monitor] at stepped
      cases stepped

theorem launch_spends (project after : Project) (kept : Sound after)
    (record : Continuation) (launched : Launched project after record) :
    credit record.story project = 1 ∧ credit record.story after = 0 := by
  obtain ⟨row, member, own, waiting⟩ := launched.waited
  refine ⟨credit_of_mem record.story project row member own waiting,
    credit_none record.story after fun other listed same waits => ?_⟩
  have outstanding : other.status.outstanding = true := by
    rcases waits with is | is <;> rw [is] <;> rfl
  have going : record.status.outstanding = true := by rw [launched.attempting]; rfl
  have one := kept.alone other listed record launched.written same outstanding going
  rw [same_of_id after.rows kept.ids other record listed launched.written one] at waits
  rcases waits with is | is <;> exact absurd (is.symm.trans launched.attempting) (by decide)

theorem launch_paid (project after : Project) (action : HandoffAct) (sound : Sound project)
    (acted : project.act action = some after) :
    launches story project action + credit story after ≤
      pays story project action + credit story project := by
  have paid := credit_paid story project after action acted
    (act_stepped project sound action after acted).1
  unfold launches
  split
  · next eligible next found =>
      cases found.symm.trans acted
      split
      · next record rest resuming =>
          split_ifs with own
          · have launched := launch_ok project after sound eligible acted record rest resuming
            obtain ⟨had, left⟩ := launch_spends project after
              (act_sound project sound _ after acted) record launched
            rw [own] at had left
            rw [had, left]
            exact Nat.le_add_left 1 _
          · rw [Nat.zero_add]
            exact paid
      · rw [Nat.zero_add]
        exact paid
  · rw [Nat.zero_add]
    exact paid

/-- Over any stretch of a run, a story is resumed at most as often as requests, explicit retries
and accepted resumes pay for it, with one more if a continuation was waiting at its start. -/
theorem launches_paid (before window : List HandoffAct) (middle final : Project)
    (reached : (untouched idPrefix).run before = some middle)
    (ran : middle.run window = some final) :
    Runs.tally Project.act (launches story) middle window + credit story final ≤
      Runs.tally Project.act (pays story) middle window + credit story middle :=
  Runs.tally_paid Project.act Sound (launches story) (pays story) (credit story)
    (fun before action after sound acted => act_sound before sound action after acted)
    (fun before action after sound acted => launch_paid story before after action sound acted)
    middle final window (reached_sound idPrefix before middle reached) ran

end Resumes

def lostCapture : Capture :=
  ⟨"claude", "session", none, some "message", "head", "clean", some "/log", "%1", 7,
    ⟨"sh", "/work/SH-1", "SH-1"⟩, none, none⟩

def handedOff : HandoffAct :=
  .requested ⟨"sh", false, .ok none, .ok (), .ok (), .ok ()⟩ 1 "request" "2026-01-05T10:00:00Z"
    ⟨.context, "what is left to do"⟩ lostCapture

/-- A pass over one continuation whose provider is gone, up to the answer to its resume. -/
def resumption (answer : ResumeAnswer) : List HandoffAct :=
  [.began, .taken, .judged none, .observed .absent false, .labelled none, .intended true,
    .answered answer, .saved, .ended]

def refusedResume : Continuation where
  id := "request"
  story := 1
  handoff := ⟨.context, "what is left to do"⟩
  generation := ⟨"claude", "session", none, some "message"⟩
  capture := lostCapture
  status := .needsAttention
  phase := .resume
  revision := 2
  attempts := 1
  createdAt := "2026-01-05T10:00:00Z"
  detail := "resume was not acknowledged: busy; no replay"
  reviewedSeq := none
  reviewedHead := none

/-- A resume that is refused, and another after a retry, whose session is valid. -/
def retriedActs : List HandoffAct :=
  handedOff :: resumption (.refused "busy") ++ [.began, .ended, .looked 1 "request",
    .retried refusedResume true] ++ resumption (.submitted (some lostCapture))

theorem launches_paid_retried : ∃ final, (untouched "SH").run retriedActs = some final ∧
    Runs.tally Project.act (launches 1) (untouched "SH") retriedActs = 2 ∧
    Runs.tally Project.act (launches 1) (untouched "SH") retriedActs + credit 1 final ≤
      Runs.tally Project.act (pays 1) (untouched "SH") retriedActs + credit 1 (untouched "SH") := by
  have ran : ((untouched "SH").run retriedActs).isSome = true := by decide +kernel
  obtain ⟨final, reached⟩ := Option.isSome_iff_exists.mp ran
  exact ⟨final, reached, by decide +kernel,
    launches_paid "SH" 1 [] retriedActs (untouched "SH") final rfl reached⟩

/-! ### Feedback -/

/-- The request is the first of its session's generation: the caller is to give the feedback. -/
def Owns (project : Project) (action : HandoffAct) (story : StoryNo) (capture : Capture) : Prop :=
  ∃ read id now handoff rows record, action = .requested read story id now handoff capture ∧
    request project.rows read story id now handoff capture = .ok (rows, record, true)

def Known (story : StoryNo) (generation : Generation) (project : Project) : Prop :=
  ∃ row ∈ project.rows, row.story = story ∧ row.handoff.kind = .context ∧
    row.generation = generation

theorem act_known (story : StoryNo) (generation : Generation) (project after : Project)
    (action : HandoffAct) (sound : Sound project) (acted : project.act action = some after)
    (known : Known story generation project) : Known story generation after := by
  obtain ⟨row, member, own, kind, same⟩ := known
  cases (act_stepped project sound action after acted).1 with
  | added record rows new =>
      exact ⟨row, rows ▸ List.mem_append_left [record] member, own, kind, same⟩
  | turned turn rows turns =>
      obtain ⟨-, story', handoff, generation', -⟩ :=
        turn_from project action row (turn row) (turns row member)
      refine ⟨turn row, rows ▸ List.mem_map_of_mem member, story'.trans own, ?_,
        generation'.trans same⟩
      rw [handoff]
      exact kind

theorem run_known (story : StoryNo) (generation : Generation) (start final : Project)
    (acts : List HandoffAct) (sound : Sound start) (known : Known story generation start)
    (ran : start.run acts = some final) : Known story generation final :=
  (Runs.possible_invariant Project.act (fun project => Sound project ∧ Known story generation project)
    (fun before action after kept acted => ⟨act_sound before kept.1 action after acted,
      act_known story generation before after action kept.1 acted kept.2⟩)
    start final acts ⟨sound, known⟩ ran).2

theorem owns_known (project after : Project) (action : HandoffAct) (story : StoryNo)
    (capture : Capture) (owned : Owns project action story capture)
    (acted : project.act action = some after) : Known story (generationOf capture) after := by
  obtain ⟨read, id, now, handoff, rows, record, rfl, ran⟩ := owned
  have moved : project.act (.requested read story id now handoff capture) =
      some { project with rows := rows } := by
    rw [Project.act, Project.command, ran]
    rfl
  cases moved.symm.trans acted
  rcases (request_ok _ _ _ _ _ _ _ _ _ _ ran).2 with ⟨-, -, unowned⟩ | ⟨-, rfl, requested⟩
  · cases unowned
  · refine ⟨record, List.mem_append_right _ (List.mem_singleton_self _), requested.owned, ?_,
      requested.dated⟩
    rw [requested.carried]
    rcases requested.standing with ⟨acknowledged, -⟩ | ⟨-, kind, -⟩
    · rw [requested.told rfl] at acknowledged
      cases acknowledged
    · exact kind

/-- The native feedback of a generation is given once: no later request of the run owns it too. -/
theorem feedback_once (before middle : List HandoffAct) (first second : HandoffAct)
    (one two : Project) (reached : (untouched idPrefix).run before = some one)
    (ran : one.run (first :: middle) = some two) (story : StoryNo) (capture again : Capture)
    (owned : Owns one first story capture)
    (same : sameGeneration (generationOf capture) again = true) : ¬Owns two second story again := by
  rintro ⟨read, id, now, handoff, rows, record, -, asked⟩
  have sound := reached_sound idPrefix before one reached
  obtain ⟨next, stepped, later⟩ := (Runs.possible_cons Project.act one two first middle).mp ran
  obtain ⟨row, member, own, kind, dated⟩ := run_known story (generationOf capture) next two middle
    (act_sound one sound first next stepped) (owns_known one next first story capture owned stepped)
    later
  rcases (request_ok _ _ _ _ _ _ _ _ _ _ asked).2 with ⟨-, -, unowned⟩ | ⟨unknown, -, requested⟩
  · cases unowned
  · have context : handoff.kind = .context := by
      rcases requested.standing with ⟨acknowledged, -⟩ | ⟨-, kind, -⟩
      · rw [requested.told rfl] at acknowledged
        cases acknowledged
      · exact kind
    refine List.find?_eq_none.mp unknown row member ?_
    rw [recorded, own, kind, context, dated, same, beq_self_eq_true, beq_self_eq_true]
    rfl

def reviewedHandoff : HandoffAct := .acked 4 1 "request" ⟨4, "head", "claude", "session"⟩

/-- The same generation is handed off again once its first handoff is acknowledged. -/
theorem feedback_once_acked : ∃ two,
    (untouched "SH").run [handedOff, reviewedHandoff] = some two ∧
      Owns (untouched "SH") handedOff 1 lostCapture ∧
      ¬Owns two (.requested ⟨"sh", false, .ok none, .ok (), .ok (), .ok ()⟩ 1 "again"
        "2026-01-05T10:00:05Z" ⟨.context, "what is left to do"⟩ lostCapture) 1 lostCapture := by
  have ran : ((untouched "SH").run
      [handedOff, reviewedHandoff]).isSome = true := by
    decide +kernel
  obtain ⟨two, reached⟩ := Option.isSome_iff_exists.mp ran
  have owned : Owns (untouched "SH") handedOff 1 lostCapture := ⟨_, _, _, _, _, _, rfl, rfl⟩
  exact ⟨two, reached, owned, feedback_once "SH" [] [reviewedHandoff]
    handedOff _ (untouched "SH") two rfl reached 1 lostCapture lostCapture owned (by decide +kernel)⟩

/-! ### Submissions -/

/-- The acknowledgement of a context handoff was given in the run, for what it says was reviewed. -/
def AckedIn (acts : List HandoffAct) (row : Continuation) : Prop :=
  ∃ before after review, acts = before ++ .acked review.sequence row.story row.id review :: after ∧
    row.reviewedSeq = some review.sequence ∧ row.reviewedHead = some review.head

theorem AckedIn.later (acts : List HandoffAct) (row : Continuation) (action : HandoffAct)
    (acked : AckedIn acts row) : AckedIn (acts ++ [action]) row := by
  obtain ⟨before, after, review, rfl, reviewed⟩ := acked
  exact ⟨before, after ++ [action], review, by rw [List.append_assoc, List.cons_append], reviewed⟩

theorem turned_acked (project : Project) (acts : List HandoffAct) (action : HandoffAct)
    (row next : Continuation) (id : next.id = row.id) (story : next.story = row.story)
    (turned : Turned project action row next) (acknowledged : next.status = .acknowledged)
    (before : row.status = .acknowledged → AckedIn acts row) : AckedIn (acts ++ [action]) next := by
  have other (status : ContinuationStatus) (is : next.status = status)
      (never : status ≠ .acknowledged) : AckedIn (acts ++ [action]) next :=
    (never (is.symm.trans acknowledged)).elim
  cases turned with
  | noted _ _ _ _ _ outstanding status =>
      rw [← status, acknowledged] at outstanding
      cases outstanding
  | acked headSeq own name review _ _ named _ _ _ current reviewed =>
      refine ⟨acts, [], review, ?_, reviewed⟩
      rw [id, story, named.1, named.2, current]
  | retried _ _ _ _ status => exact other _ status (by decide)
  | replaced _ _ _ _ _ status => exact other _ status (by decide)
  | rebound story' proposal _ _ status reviewed =>
      obtain ⟨earlier, after, review, rfl, sequence, head⟩ := before (status.symm.trans acknowledged)
      refine ⟨earlier, after ++ [.rebound story' proposal], review, ?_,
        reviewed.1.trans sequence, reviewed.2.trans head⟩
      rw [id, story, List.append_assoc, List.cons_append]
  | retired _ _ _ status => exact other _ status (by decide)
  | recovered _ _ _ _ _ status => exact other _ status (by decide)
  | stopped _ _ _ _ _ _ _ status => exact status.elim (other _ · (by decide)) (other _ · (by decide))
  | intended _ _ _ _ _ status => exact other _ status (by decide)
  | saved _ _ record rest monitor named status how =>
      rcases how with ⟨is, -⟩ | ⟨is, -⟩ <;> exact other _ (status.trans is) (by decide)

theorem run_acked (acts : List HandoffAct) (final : Project)
    (ran : (untouched idPrefix).run acts = some final) :
    ∀ row ∈ final.rows, row.handoff.kind = .context → row.status = .acknowledged →
      AckedIn acts row := by
  induction acts using List.reverseRecOn generalizing final with
  | nil =>
      cases ran
      exact fun row member => absurd member List.not_mem_nil
  | append_singleton acts action earlier =>
      obtain ⟨middle, reached, acted⟩ :=
        (Runs.possible_concat Project.act (untouched idPrefix) final acts action).mp ran
      intro next listed kind acknowledged
      have sound := reached_sound idPrefix acts middle reached
      cases (act_stepped middle sound action final acted).1 with
      | added record rows new =>
          rw [rows] at listed
          rcases List.mem_append.mp listed with before | last
          · exact (earlier middle reached next before kind acknowledged).later acts next action
          · rw [List.mem_singleton.mp last] at kind acknowledged
            rcases new.status with ⟨-, review⟩ | ⟨awaits | attention, -⟩
            · rw [review] at kind
              cases kind
            · rw [awaits] at acknowledged
              cases acknowledged
            · rw [attention] at acknowledged
              cases acknowledged
      | turned turn rows turns =>
          rw [rows] at listed
          obtain ⟨row, member, rfl⟩ := List.mem_map.mp listed
          rcases turns row member with still | turned
          · rw [still] at kind acknowledged ⊢
            exact (earlier middle reached row member kind acknowledged).later acts row action
          · refine turned_acked middle acts action row _ turned.id turned.story turned.how
              acknowledged fun was => earlier middle reached row member ?_ was
            rw [← turned.handoff]
            exact kind

/-- The evidence is of the clean worktree that was reviewed. -/
structure Matches (request : Continuation) (evidence : SubmissionEvidence) : Prop where
  clean : evidence.clean = true
  head : request.reviewedHead = some evidence.head
  worktree : request.capture.lease.worktreePath = evidence.worktree
  branch : request.capture.lease.branch = evidence.branch

theorem checkSubmission_ok (rows : Rows) (story : StoryNo) (sequence : Int)
    (evidence : Option (Except String SubmissionEvidence))
    (admitted : checkSubmission rows story sequence evidence = .ok ()) :
    (∀ row ∈ rows, row.story = story → row.status.outstanding = false) ∧
      ∀ request, rows.reverse.find? (fenced story) = some request →
        request.reviewedSeq = some sequence ∧
          ∃ proof, evidence = some (.ok proof) ∧ Matches request proof := by
  unfold checkSubmission at admitted
  cases unresolved : rows.reverse.find? fun row => row.story == story && row.status.outstanding with
  | some row =>
      rw [unresolved] at admitted
      cases admitted
  | none =>
      rw [unresolved] at admitted
      constructor
      · intro row member own
        have quiet := List.find?_eq_none.mp unresolved row (List.mem_reverse.mpr member)
        simpa [own] using quiet
      · intro request found
        rw [found] at admitted
        simp only [bind_eq_ok, refuse_ok] at admitted
        obtain ⟨_, current, shown⟩ := admitted
        refine ⟨bne_eq_false_iff_eq.mp current, ?_⟩
        cases evidence with
        | none => cases shown
        | some given =>
            cases given with
            | error failure => cases shown
            | ok proof =>
                simp only [bind_eq_ok, refuse_ok] at shown
                obtain ⟨_, clean, _, head, place⟩ := shown
                rw [Bool.or_eq_false_iff, bne_eq_false_iff_eq, bne_eq_false_iff_eq] at place
                rw [Bool.not_eq_false'] at clean
                exact ⟨proof, rfl, clean, bne_eq_false_iff_eq.mp head, place.1, place.2⟩

/-- What a submission is admitted on: nothing of the story is unresolved, and the last handoff that
was acknowledged was so in this run, at exactly this sequence and head. -/
theorem submission_reviewed (acts : List HandoffAct) (final : Project)
    (ran : (untouched idPrefix).run acts = some final) (story : StoryNo) (sequence : Int)
    (evidence : Option (Except String SubmissionEvidence))
    (admitted : checkSubmission final.rows story sequence evidence = .ok ()) :
    (∀ row ∈ final.rows, row.story = story → row.status.outstanding = false) ∧
      ∀ request, final.rows.reverse.find? (fenced story) = some request →
        ∃ proof review before after, evidence = some (.ok proof) ∧ Matches request proof ∧
          acts = before ++ .acked sequence story request.id review :: after ∧
          review.sequence = sequence ∧ review.head = proof.head := by
  obtain ⟨resolved, latest⟩ := checkSubmission_ok final.rows story sequence evidence admitted
  refine ⟨resolved, fun request found => ?_⟩
  obtain ⟨current, proof, given, matching⟩ := latest request found
  have standing := List.find?_some found
  simp only [fenced, ofStory, Bool.and_eq_true, beq_iff_eq] at standing
  obtain ⟨before, after, review, split, reviewed, head⟩ := run_acked idPrefix acts final ran request
    (List.mem_reverse.mp (List.mem_of_find?_eq_some found)) standing.1.2 standing.2
  have sequenced : review.sequence = sequence := Option.some.inj (reviewed.symm.trans current)
  refine ⟨proof, review, before, after, given, matching, ?_, sequenced,
    Option.some.inj (head.symm.trans matching.head)⟩
  rw [split, sequenced, standing.1.1]

theorem submission_reviewed_head : ∃ final,
    (untouched "SH").run [handedOff, reviewedHandoff] = some final ∧
      (∀ row ∈ final.rows, row.story = 1 → row.status.outstanding = false) ∧
      ∀ request, final.rows.reverse.find? (fenced 1) = some request →
        ∃ proof review before after,
          some (.ok ⟨"head", "/work/SH-1", "SH-1", true⟩) =
            (some (.ok proof) : Option (Except String SubmissionEvidence)) ∧
          Matches request proof ∧
          [handedOff, reviewedHandoff] =
            before ++ .acked 4 1 request.id review :: after ∧
          review.sequence = 4 ∧ review.head = proof.head := by
  have admitted : ((untouched "SH").run
      [handedOff, reviewedHandoff]).any (fun final =>
        (checkSubmission final.rows 1 4 (some (.ok ⟨"head", "/work/SH-1", "SH-1", true⟩))).isOk) =
          true := by decide +kernel
  obtain ⟨final, reached, passed⟩ := (Option.any_eq_true _ _).mp admitted
  refine ⟨final, reached, submission_reviewed "SH" _ final reached 1 4 _ ?_⟩
  cases checked : checkSubmission final.rows 1 4
      (some (.ok ⟨"head", "/work/SH-1", "SH-1", true⟩)) with
  | ok done => rfl
  | error failure =>
      rw [checked] at passed
      cases passed

end Storyhook.Service.Handoffs
