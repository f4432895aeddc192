import Mathlib.Data.FinEnum
import DocumentQuery.Proofs.AlikeCalls
import DocumentQuery.Proofs.OverlappingCalls

/-!
# Queries do not influence each other

Queries that are in use on one session share its tokens, and no token is given
to two of them.  A query sends under its own token alone, so that a connection
that answers each token by a script of its own gives it the answers that it would
give to the query alone.  What a call does depends on its answers and on nothing
else that others change.
-/

namespace DocumentQuery

/-! ## Scripts by token -/

/-- A connection that answers each request from the script of its token. -/
structure Scripts where
  script : Token → Script

namespace Scripts

def send (request : Envelope) (scripts : Scripts) : Exchange × Scripts :=
  let (exchange, left) := Connection.send request (scripts.script request.token)
  (exchange, ⟨Function.update scripts.script request.token left⟩)

theorem send_self (request : Envelope) (scripts : Scripts) :
    (send request scripts).2.script request.token =
      (Connection.send request (scripts.script request.token)).2 :=
  Function.update_self ..

theorem send_of_ne {request : Envelope} {token : Token} (h : token ≠ request.token)
    (scripts : Scripts) : (send request scripts).2.script token = scripts.script token :=
  Function.update_of_ne h ..

instance : Connection Scripts where
  send := send
  close scripts := (.ok (), scripts)
  repliesLeft scripts := ∑ token : Token, Connection.repliesLeft (scripts.script token)
  repliesLeft_send request scripts bytes after h := by
    have hreply : (send request scripts).1 = .reply bytes := congrArg Prod.fst h
    have hafter : (send request scripts).2 = after := congrArg Prod.snd h
    have hless : Connection.repliesLeft (after.script request.token) <
        Connection.repliesLeft (scripts.script request.token) := by
      rw [← hafter, send_self]
      exact Connection.repliesLeft_send request _ bytes _ (Prod.ext hreply rfl)
    subst hafter
    refine Finset.sum_lt_sum (fun token _ => ?_) ⟨request.token, Finset.mem_univ _, hless⟩
    by_cases htoken : token = request.token
    · exact htoken ▸ hless.le
    · exact (congrArg Connection.repliesLeft (send_of_ne htoken scripts)).le

end Scripts

variable {ι : Type} {t t' : Token}

/-- What an entry says is the same for two tokens. -/
def ScriptEntry.Alike (t t' : Token) : ScriptEntry → Prop
  | .reply bytes => Reply.Alike t t' (Reply.decode (bytes t) t) (Reply.decode (bytes t') t')
  | _ => True

theorem Script.send_alike {script : Script}
    (h : ∀ entry ∈ script.entries, entry.Alike t t') (request : Request) :
    (Connection.send ⟨t, request⟩ script).1.Alike t t'
        (Connection.send ⟨t', request⟩ script).1 ∧
      (Connection.send ⟨t, request⟩ script).2 =
        (Connection.send ⟨t', request⟩ script).2 ∧
      ∀ entry ∈ (Connection.send (⟨t, request⟩ : Envelope) script).2.entries,
        entry.Alike t t' := by
  obtain ⟨entries, closeFault, closings⟩ := script
  cases entries with
  | nil => exact ⟨.failed .unscripted, rfl, h⟩
  | cons entry rest =>
      obtain ⟨hentry, hrest⟩ := List.forall_mem_cons.1 h
      cases entry with
      | reply bytes => exact ⟨.reply hentry, rfl, hrest⟩
      | failed fault => exact ⟨.failed (.same fault), rfl, hrest⟩
      | unanswered => exact ⟨.unanswered, rfl, hrest⟩

namespace Session

def requestsOf {σ : Type} (s : Session σ) (token : Token) : List Request :=
  (s.requests.filter fun request => request.token = token).map Envelope.request

theorem requestsOf_send {σ : Type} [Connection σ] {s : Session σ}
    (hopen : s.closed = false) (request : Envelope) (token : Token) :
    (s.send request).2.requestsOf token =
      s.requestsOf token ++ if request.token = token then [request.request] else [] := by
  rw [requestsOf, requests_send hopen, List.filter_append, List.map_append, requestsOf]
  by_cases h : request.token = token <;> simp [h]

theorem send_of_open {σ : Type} [Connection σ] {s : Session σ}
    (hopen : s.closed = false) (request : Envelope) :
    s.send request = ((Connection.send request s.connection).1,
      { s.note (.sending request) with
        connection := (Connection.send request s.connection).2 }) := by
  rw [send, hopen]
  rfl

/-- Two open sessions with the same settings that have sent the same under two
tokens, and are going to give the same answers to what is sent under them. -/
structure Linked (t t' : Token) (s s' : Session Scripts) : Prop where
  opened : s.closed = false
  opened' : s'.closed = false
  settings : s.settings = s'.settings
  script : s.connection.script t = s'.connection.script t'
  alike : ∀ entry ∈ (s.connection.script t).entries, entry.Alike t t'
  requests : s.requestsOf t = s'.requestsOf t'

theorem Linked.send {s s' : Session Scripts} (h : Linked t t' s s') (request : Request) :
    (s.send ⟨t, request⟩).1.Alike t t' (s'.send ⟨t', request⟩).1 ∧
      Linked t t' (s.send ⟨t, request⟩).2 (s'.send ⟨t', request⟩).2 := by
  obtain ⟨hexchange, hleft, halike⟩ := Script.send_alike h.alike request
  have hself : ((Connection.send ⟨t, request⟩ s.connection).2).script t =
      (Connection.send ⟨t, request⟩ (s.connection.script t)).2 :=
    Scripts.send_self ⟨t, request⟩ s.connection
  have hself' : ((Connection.send ⟨t', request⟩ s'.connection).2).script t' =
      (Connection.send ⟨t', request⟩ (s'.connection.script t')).2 :=
    Scripts.send_self ⟨t', request⟩ s'.connection
  have hrequests := requestsOf_send h.opened ⟨t, request⟩ t
  have hrequests' := requestsOf_send h.opened' ⟨t', request⟩ t'
  rw [if_pos rfl] at hrequests hrequests'
  rw [send_of_open h.opened] at hrequests ⊢
  rw [send_of_open h.opened'] at hrequests' ⊢
  refine ⟨?_, h.opened, h.opened', h.settings, ?_, ?_, ?_⟩
  · have hanswered : (Connection.send ⟨t', request⟩ s'.connection).1 =
        (Connection.send ⟨t', request⟩ (s.connection.script t)).1 :=
      congrArg (fun script => (Connection.send ⟨t', request⟩ script).1) h.script.symm
    exact hanswered ▸ hexchange
  · rw [hself, hself', hleft, h.script]
  · rw [hself]
    exact halike
  · rw [hrequests, hrequests', h.requests]

/-- All that differs between two sessions has to do with one token. -/
structure Apart (t : Token) (s s' : Session Scripts) : Prop where
  closed : s'.closed = s.closed
  settings : s'.settings = s.settings
  nextToken : s'.nextToken = s.nextToken
  script : ∀ token, token ≠ t → s'.connection.script token = s.connection.script token
  requests : ∀ token, token ≠ t → s'.requestsOf token = s.requestsOf token

theorem Apart.send {s s' : Session Scripts} (h : Apart t s s') (request : Request) :
    Apart t s (s'.send ⟨t, request⟩).2 := by
  cases hclosed : s'.closed with
  | true =>
      rw [send_closed hclosed]
      exact h
  | false =>
      have hrequests := requestsOf_send hclosed ⟨t, request⟩
      rw [send_of_open hclosed] at hrequests ⊢
      refine ⟨h.closed, h.settings, h.nextToken, fun token htoken => ?_,
        fun token htoken => ?_⟩
      · exact (Scripts.send_of_ne htoken _).trans (h.script token htoken)
      · rw [hrequests token, if_neg (Ne.symm htoken), List.append_nil]
        exact h.requests token htoken

theorem Linked.apart {other : Token} {s s' after : Session Scripts}
    (h : Linked t t' s s') (hapart : Apart other s after) (hne : t ≠ other) :
    Linked t t' after s' where
  opened := hapart.closed.trans h.opened
  opened' := h.opened'
  settings := hapart.settings.trans h.settings
  script := (hapart.script t hne).trans h.script
  alike := by
    rw [hapart.script t hne]
    exact h.alike
  requests := (hapart.requests t hne).trans h.requests

end Session

/-! ## Calls that have had the same answers -/

/-- Two calls that are to be given the same answers, and wait for the same. -/
structure Resumed.Alike (t t' : Token) (view view' : Resumed Scripts) : Prop where
  shared : Session.Linked t t' view.shared view'.shared
  known : List.Forall₂ (Exchange.Alike t t') view.known view'.known
  coming : Option.Rel (Exchange.Alike t t') view.coming view'.coming

theorem Resumed.answering (t t' : Token) :
    Connection.Answering t t' (fun _ => True) (Resumed.Alike t t') := by
  refine ⟨fun _ _ _ => trivial, ?_⟩
  rintro ⟨shared, known, heard, coming⟩ ⟨shared', known', heard', coming'⟩
    ⟨hshared, hknown, hcoming⟩ request -
  cases hknown with
  | cons hanswer hknown => exact ⟨hanswer, hshared, hknown, hcoming⟩
  | nil =>
      obtain ⟨hexchange, hsent⟩ := hshared.send request
      have hopen : shared.closed = false := hshared.opened
      have hopen' : shared'.closed = false := hshared.opened'
      simp only [Connection.send, hopen, hopen', Bool.false_eq_true, if_false]
      exact ⟨.unanswered, hsent, .nil, .some hexchange⟩

/-! ## Tasks -/

structure Waiting.Alike (t t' : Token) (waiting waiting' : Waiting) : Prop where
  use : waiting.use.Alike t t' waiting'.use
  closed : waiting.origin.closed = waiting'.origin.closed
  settings : waiting.origin.settings = waiting'.origin.settings
  token : waiting.use.token waiting.origin = t
  token' : waiting'.use.token waiting'.origin = t'
  known : List.Forall₂ (Exchange.Alike t t') waiting.known waiting'.known
  coming : waiting.coming.Alike t t' waiting'.coming

structure Task.Alike (t t' : Token) (task task' : Task) : Prop where
  cursor : Option.Rel (Cursor.Alike t t') task.cursor task'.cursor
  waiting : Option.Rel (Waiting.Alike t t') task.waiting task'.waiting
  reports : List.Forall₂ (Report.Alike t t') task.reports task'.reports

theorem Task.Alike.proceed {task task' : Task} (h : task.Alike t t' task')
    {use use' : Use} (huse : use.Alike t t' use') (origin origin' : Session Unit)
    (hclosed : origin.closed = origin'.closed)
    (hsettings : origin.settings = origin'.settings) (ht : use.token origin = t)
    (ht' : use'.token origin' = t') (heard heard' : List Exchange)
    {known known' : List Exchange}
    (hknown : List.Forall₂ (Exchange.Alike t t') known known')
    {shared shared' : Session Scripts} (hshared : Session.Linked t t' shared shared') :
    (task.proceed use origin heard known shared).1.Alike t t'
        (task'.proceed use' origin' heard' known' shared').1 ∧
      Session.Linked t t' (task.proceed use origin heard known shared).2.connection.shared
        (task'.proceed use' origin' heard' known' shared').2.connection.shared := by
  have hviews : Session.Alike (Resumed.Alike t t')
      (origin.over ⟨shared, known, heard, none⟩)
      (origin'.over ⟨shared', known', heard', none⟩) :=
    ⟨hclosed, hshared, hknown, .none⟩
  have hmade := huse.perform (Resumed.answering t t') hviews hsettings
    ((use.token_over ..).trans ht) ((use'.token_over ..).trans ht') trivial
  unfold Task.proceed
  dsimp only
  generalize use.perform (origin.over (⟨shared, known, heard, none⟩ : Resumed Scripts)) =
    made at hmade ⊢
  generalize use'.perform
    (origin'.over (⟨shared', known', heard', none⟩ : Resumed Scripts)) = made' at hmade ⊢
  obtain ⟨report, cursor, view⟩ := made
  obtain ⟨report', cursor', view'⟩ := made'
  obtain ⟨hreport, hcursor, hview⟩ := hmade
  have hcoming := hview.connection.coming
  refine ⟨⟨hcursor, ?_, ?_⟩, hview.connection.shared⟩
  · dsimp only at hcoming ⊢
    generalize view.connection.coming = coming at hcoming
    generalize view'.connection.coming = coming' at hcoming
    cases hcoming with
    | none => exact .none
    | some hcoming =>
        exact .some ⟨huse, hclosed, hsettings, ht, ht', hknown, hcoming⟩
  · dsimp only at hcoming ⊢
    refine List.rel_append h.reports ?_
    generalize view.connection.coming = coming at hcoming
    generalize view'.connection.coming = coming' at hcoming
    cases hcoming with
    | none => exact .cons hreport .nil
    | some hcoming => exact .nil

/-- A call leaves all other tokens alone. -/
theorem Task.proceed_apart (task : Task) (use : Use) (origin : Session Unit)
    (heard known : List Exchange) (shared : Session Scripts) :
    Session.Apart (use.token origin) shared
      (task.proceed use origin heard known shared).2.connection.shared := by
  have hsends : ∀ (request : Request) (view : Resumed Scripts),
      Session.Apart (use.token origin) shared view.shared →
      Session.Apart (use.token origin) shared
        (Connection.send ⟨use.token origin, request⟩ view).2.shared := by
    rintro request ⟨between, known, heard, coming⟩ h
    cases known with
    | cons answer known => exact h
    | nil =>
        cases hclosed : between.closed with
        | true =>
            simp only [Connection.send, hclosed, if_true]
            exact h
        | false =>
            simp only [Connection.send, hclosed, Bool.false_eq_true, if_false]
            exact h.send request
  exact use.keeps_connection
    (P := fun view : Resumed Scripts =>
      Session.Apart (use.token origin) shared view.shared)
    hsends (s := origin.over ⟨shared, known, heard, none⟩) (use.token_over ..)
    ⟨rfl, rfl, rfl, fun _ _ => rfl, fun _ _ => rfl⟩

/-! ## Tokens are given out once -/

def TaskStep.isRun : TaskStep → Bool
  | .run => true
  | _ => false

namespace System

variable [DecidableEq ι] {queries : ι → Query} {settings : Settings}
  {scripts : Token → Script}

/-- So many tokens have been taken, each by one of the queries, and no other token
was used. -/
structure Orderly (settings : Settings) (scripts : Token → Script) (taken : Nat)
    (S : System ι Scripts) : Prop where
  opened : S.session.closed = false
  settings : S.session.settings = settings
  next : S.session.nextToken = UInt64.ofNat (taken + 1)
  owns : ∀ i, (S.tasks i).Owns
  numbered : ∀ i token, (S.tasks i).token = some token →
    ∃ m < taken, token = UInt64.ofNat (m + 1)
  distinct : ∀ i j token, (S.tasks i).token = some token →
    (S.tasks j).token = some token → i = j
  untouched : ∀ token, (∀ i, (S.tasks i).token ≠ some token) →
    S.session.connection.script token = scripts token ∧ S.session.requestsOf token = []

omit [DecidableEq ι] in
theorem orderly_start :
    (start (Scripts.mk scripts) settings : System ι Scripts).Orderly settings scripts 0 where
  opened := rfl
  settings := rfl
  next := rfl
  owns _ := ⟨fun _ h => (by cases h), fun _ h => (by cases h)⟩
  numbered _ _ h := by cases h
  distinct _ _ _ h := by cases h
  untouched _ _ := ⟨rfl, rfl⟩

variable {S : System ι Scripts} {taken : Nat}

theorem Orderly.put (h : S.Orderly settings scripts taken) {i : ι} {task : Task}
    (htoken : task.token = (S.tasks i).token) (howns : task.Owns) {session : Session Scripts}
    (hsession : ∀ token, (∀ i, (S.tasks i).token ≠ some token) →
      session.connection.script token = S.session.connection.script token ∧
        session.requestsOf token = S.session.requestsOf token)
    (hclosed : session.closed = S.session.closed)
    (hsettings : session.settings = S.session.settings)
    (hnext : session.nextToken = S.session.nextToken) :
    (S.put i task session).Orderly settings scripts taken := by
  have htokens : ∀ j, ((S.put i task session).tasks j).token = (S.tasks j).token := by
    intro j
    by_cases hj : j = i
    · rw [hj, put_self, htoken]
    · rw [put_of_ne hj]
  refine ⟨hclosed.trans h.opened, hsettings.trans h.settings, hnext.trans h.next,
    fun j => ?_, fun j token => ?_, fun j k token => ?_, fun token hfree => ?_⟩
  · by_cases hj : j = i
    · rw [hj, put_self]
      exact howns
    · rw [put_of_ne hj]
      exact h.owns j
  · rw [htokens]
    exact h.numbered j token
  · rw [htokens, htokens]
    exact h.distinct j k token
  · simp only [htokens] at hfree
    obtain ⟨hscript, hrequests⟩ := h.untouched token hfree
    obtain ⟨hscript', hrequests'⟩ := hsession token hfree
    exact ⟨hscript'.trans hscript, hrequests'.trans hrequests⟩

omit [DecidableEq ι] in
theorem Orderly.fresh (h : S.Orderly settings scripts taken) (htaken : taken < 2 ^ 64)
    (i : ι) : (S.tasks i).token ≠ some S.session.nextToken := by
  intro hi
  obtain ⟨m, hm, hequal⟩ := h.numbered i _ hi
  have hsame := Session.token_inj (by omega) htaken (hequal.symm.trans h.next)
  omega

theorem Orderly.run (h : S.Orderly settings scripts taken) (htaken : taken < 2 ^ 64)
    {i : ι} (htoken : (S.tasks i).token = none) {task : Task}
    {view : Session (Resumed Scripts)}
    (hwent : (S.tasks i).proceed (.run (queries i)) (S.session.over ()) [] [] S.session =
      (task, view)) :
    (S.put i { task with token := some S.session.nextToken }
      { view.connection.shared with nextToken := S.session.nextToken + 1 }).Orderly
        settings scripts (taken + 1) := by
  have hapart := (S.tasks i).proceed_apart (.run (queries i)) (S.session.over ()) [] []
    S.session
  have howns := (S.tasks i).owns_proceed (.run (queries i)) (S.session.over ()) [] []
    S.session
  rw [hwent] at hapart howns
  have hfresh := h.fresh htaken
  have htokens : ∀ j token,
      ((S.put i { task with token := some S.session.nextToken }
        { view.connection.shared with nextToken := S.session.nextToken + 1 }).tasks j).token =
          some token ↔
      (S.tasks j).token = some token ∨ (j = i ∧ token = S.session.nextToken) := by
    intro j token
    by_cases hj : j = i
    · subst hj
      rw [put_self]
      simp [htoken, eq_comm]
    · rw [put_of_ne hj]
      simp [hj]
  refine ⟨hapart.closed.trans h.opened, hapart.settings.trans h.settings, ?_, fun j => ?_,
    fun j token hj => ?_, fun j k token hj hk => ?_, fun token hfree => ?_⟩
  · show S.session.nextToken + 1 = _
    rw [h.next, UInt64.ofNat_add (taken + 1)]
    rfl
  · by_cases hj : j = i
    · subst hj
      rw [put_self]
      exact howns
    · rw [put_of_ne hj]
      exact h.owns j
  · rcases (htokens j token).1 hj with hj | ⟨-, rfl⟩
    · obtain ⟨m, hm, rfl⟩ := h.numbered j token hj
      exact ⟨m, by omega, rfl⟩
    · exact ⟨taken, by omega, h.next⟩
  · rcases (htokens j token).1 hj with hj' | ⟨hij, hj'⟩
    · rcases (htokens k token).1 hk with hk' | ⟨-, hk'⟩
      · exact h.distinct j k token hj' hk'
      · exact absurd (hk' ▸ hj') (hfresh j)
    · rcases (htokens k token).1 hk with hk' | ⟨hik, -⟩
      · exact absurd (hj' ▸ hk') (hfresh k)
      · exact hij.trans hik.symm
  · have hothers : ∀ j, (S.tasks j).token ≠ some token :=
      fun j hj => hfree j ((htokens j token).2 (.inl hj))
    have hother : token ≠ S.session.nextToken :=
      fun hown => hfree i ((htokens i token).2 (.inr ⟨rfl, hown⟩))
    obtain ⟨hscript, hrequests⟩ := h.untouched token hothers
    exact ⟨(hapart.script token hother).trans hscript,
      (hapart.requests token hother).trans hrequests⟩

theorem Orderly.step (h : S.Orderly settings scripts taken) (i : ι) (step : TaskStep)
    (htaken : step.isRun → taken < 2 ^ 64) :
    ∃ taken', taken' ≤ taken + (if step.isRun then 1 else 0) ∧
      (S.step queries i step).Orderly settings scripts taken' := by
  have hstepped := stepped_step queries (h.owns i) step
  generalize S.step queries i step = after at hstepped ⊢
  cases hstepped with
  | still => exact ⟨taken, Nat.le_add_right .., h⟩
  | quiet htoken howns =>
      exact ⟨taken, Nat.le_add_right ..,
        h.put htoken howns (fun _ _ => ⟨rfl, rfl⟩) rfl rfl rfl⟩
  | went task use origin heard known htoken hsame =>
      have hapart := task.proceed_apart use origin heard known S.session
      have howns := task.owns_proceed use origin heard known S.session
      rw [← htoken, ← hsame] at howns
      have hkept : (task.proceed use origin heard known S.session).1.token =
          (S.tasks i).token := hsame
      refine ⟨taken, Nat.le_add_right .., h.put hkept howns (fun token hfree => ?_)
        hapart.closed hapart.settings hapart.nextToken⟩
      have hother : token ≠ use.token origin := by
        intro hown
        exact hfree i (hown ▸ htoken)
      exact ⟨hapart.script token hother, hapart.requests token hother⟩
  | ran htoken hwent => exact ⟨taken + 1, le_rfl, h.run (htaken rfl) htoken hwent⟩

theorem run_concat (S : System ι Scripts) (steps : List (ι × TaskStep)) (i : ι)
    (step : TaskStep) :
    S.run queries (steps ++ [(i, step)]) = (S.run queries steps).step queries i step := by
  rw [run, List.foldl_append]
  rfl

theorem orderly_run (queries : ι → Query) (settings : Settings)
    (scripts : Token → Script) (steps : List (ι × TaskStep))
    (hruns : steps.countP (fun step => step.2.isRun) ≤ 2 ^ 64) :
    ∃ taken, taken ≤ steps.countP (fun step => step.2.isRun) ∧
      ((start (Scripts.mk scripts) settings).run queries steps).Orderly settings scripts taken := by
  induction steps using List.reverseRecOn with
  | nil => exact ⟨0, Nat.le_refl 0, orderly_start⟩
  | append_singleton steps last ih =>
      obtain ⟨i, step⟩ := last
      rw [List.countP_append, List.countP_singleton] at hruns ⊢
      dsimp only at hruns ⊢
      obtain ⟨taken, htaken, horderly⟩ := ih (by omega)
      have hless : step.isRun → taken < 2 ^ 64 := by
        intro hrun
        rw [if_pos hrun] at hruns
        omega
      obtain ⟨taken', htaken', horderly'⟩ := horderly.step i step hless
      rw [run_concat]
      exact ⟨taken', by omega, horderly'⟩

/-! ## With others and alone -/

/-- A query in a system has come to the same as alone, where its token is one. -/
structure Paired (settings : Settings) (script : Script) (i : ι) (token : Token)
    (S A : System ι Scripts) : Prop where
  task : (S.tasks i).Alike token 1 (A.tasks i)
  unstarted : (S.tasks i).token = none →
    (A.tasks i).token = none ∧ A.session = .fresh ⟨fun _ => script⟩ settings
  started : ∀ own, (S.tasks i).token = some own →
    own = token ∧ (A.tasks i).token = some 1 ∧ Session.Linked token 1 S.session A.session

variable {A : System ι Scripts} {i : ι} {token : Token}

omit [DecidableEq ι] in
/-- What leaves a query alone, and links its sessions as before, makes no
difference. -/
theorem Paired.congr {script : Script} {S' : System ι Scripts}
    (h : Paired settings script i token S A) (htask : S'.tasks i = S.tasks i)
    (hlinked : ∀ own, (S.tasks i).token = some own →
      Session.Linked token 1 S.session A.session →
      Session.Linked token 1 S'.session A.session) :
    Paired settings script i token S' A := by
  refine ⟨htask ▸ h.task, htask ▸ h.unstarted, ?_⟩
  rw [htask]
  intro own hown
  obtain ⟨hsame, halone, hbefore⟩ := h.started own hown
  exact ⟨hsame, halone, hlinked own hown hbefore⟩

theorem Paired.other {script : Script} (h : Paired settings script i token S A)
    (hS : S.Orderly settings scripts taken) {j : ι} (hj : j ≠ i) {step : TaskStep}
    {taken' : Nat} (hS' : (S.step queries j step).Orderly settings scripts taken') :
    Paired settings script i token (S.step queries j step) A := by
  have hstepped := stepped_step queries (hS.owns j) step
  generalize S.step queries j step = after at hstepped hS' ⊢
  cases hstepped with
  | still => exact h
  | quiet => exact h.congr (put_of_ne hj.symm ..) fun _ _ hlinked => hlinked
  | went task use origin heard known htoken hsame =>
      have hapart := task.proceed_apart use origin heard known S.session
      refine h.congr (put_of_ne hj.symm ..) fun own hown hlinked => ?_
      obtain ⟨rfl, -⟩ := h.started own hown
      refine hlinked.apart hapart fun hsame => ?_
      exact hj (hS.distinct j i own (hsame ▸ htoken) hown)
  | @ran task view htoken hwent =>
      have hapart := (S.tasks j).proceed_apart (.run (queries j)) (S.session.over ()) [] []
        S.session
      rw [hwent] at hapart
      refine h.congr (put_of_ne hj.symm ..) fun own hown hlinked => ?_
      obtain ⟨rfl, -⟩ := h.started own hown
      -- The other takes a token that nobody has, so it is not that of the query.
      have hne : own ≠ S.session.nextToken := by
        intro hsame
        refine hj (hS'.distinct j i own ?_ ?_)
        · rw [put_self, hsame]
        · rw [put_of_ne hj.symm, hown]
      have hafter := hlinked.apart hapart hne
      exact ⟨hafter.opened, hafter.opened', hafter.settings, hafter.script, hafter.alike,
        hafter.requests⟩

theorem Paired.run (h : Paired settings (scripts token) i token S A)
    (hS : S.Orderly settings scripts taken)
    (halike : ∀ entry ∈ (scripts token).entries, entry.Alike token 1)
    (hnone : (S.tasks i).token = none)
    {taken' : Nat} (hS' : (S.step queries i .run).Orderly settings scripts taken')
    (hown : ∀ own, ((S.step queries i .run).tasks i).token = some own → own = token) :
    Paired settings (scripts token) i token (S.step queries i .run)
      (A.step queries i .run) := by
  obtain ⟨hnone', hfresh⟩ := h.unstarted hnone
  have hsettings : A.session.settings = S.session.settings := by
    rw [hfresh, hS.settings]
    rfl
  cases hcompile : (queries i).compile (some S.session.settings.defaultDatabase) with
  | error cause =>
      rw [step_run_of_error hnone hcompile,
        step_run_of_error hnone' (hsettings ▸ hcompile)]
      refine ⟨?_, ?_, ?_⟩
      · rw [put_self, put_self]
        exact ⟨.none, .none, List.rel_append h.task.reports
          (.cons (.of (.error (.same _))) .nil)⟩
      · rw [put_self, put_self]
        exact fun _ => ⟨hnone', hfresh⟩
      · rw [put_self]
        intro own hsome
        cases hnone.symm.trans hsome
  | ok term =>
      have hstep := step_run_of_ok hnone hcompile rfl
      have hstep' := step_run_of_ok hnone' (hsettings ▸ hcompile) rfl
      rw [hstep, put_self] at hown
      have hnext : S.session.nextToken = token := hown _ rfl
      have hfree : ∀ j, (S.tasks j).token ≠ some token := by
        intro j hj
        by_cases hij : j = i
        · cases hnone.symm.trans (hij ▸ hj)
        · refine hij (hS'.distinct j i token ?_ ?_)
          · rw [hstep, put_of_ne hij, hj]
          · rw [hstep, put_self, hnext]
      obtain ⟨hscript, hrequests⟩ := hS.untouched token hfree
      have hlinked : Session.Linked token 1 S.session A.session := by
        rw [hfresh]
        exact ⟨hS.opened, rfl, hS.settings, hscript, hscript ▸ halike, hrequests⟩
      have hnext' : A.session.nextToken = 1 := by
        rw [hfresh]
        rfl
      obtain ⟨htask, hafter⟩ := h.task.proceed (.run (queries i))
        (S.session.over ()) (A.session.over ())
        (hlinked.opened.trans hlinked.opened'.symm) hlinked.settings hnext hnext' [] [] .nil
        hlinked
      rw [hstep, hstep']
      refine ⟨?_, ?_, ?_⟩
      · rw [put_self, put_self]
        exact ⟨htask.cursor, htask.waiting, htask.reports⟩
      · rw [put_self]
        intro hsome
        cases hsome
      · rw [put_self, put_self]
        intro own hsome
        cases hsome
        exact ⟨hnext, congrArg some hnext', hafter.opened, hafter.opened', hafter.settings,
          hafter.script, hafter.alike, hafter.requests⟩

theorem Paired.went (h : Paired settings (scripts token) i token S A) {own : Token}
    (hown : (S.tasks i).token = some own) {task task' : Task}
    (htask : task.Alike token 1 task') (hsame : task.token = (S.tasks i).token)
    (hsame' : task'.token = (A.tasks i).token) {use use' : Use}
    (huse : use.Alike token 1 use') (origin origin' : Session Unit)
    (hclosed : origin.closed = origin'.closed)
    (hsettings : origin.settings = origin'.settings) (ht : use.token origin = token)
    (ht' : use'.token origin' = 1) (heard heard' : List Exchange)
    {known known' : List Exchange}
    (hknown : List.Forall₂ (Exchange.Alike token 1) known known') :
    Paired settings (scripts token) i token
      (S.put i (task.proceed use origin heard known S.session).1
        (task.proceed use origin heard known S.session).2.connection.shared)
      (A.put i (task'.proceed use' origin' heard' known' A.session).1
        (task'.proceed use' origin' heard' known' A.session).2.connection.shared) := by
  obtain ⟨rfl, halone, hlinked⟩ := h.started own hown
  obtain ⟨hproceeded, hafter⟩ := htask.proceed huse origin origin' hclosed hsettings ht ht'
    heard heard' hknown hlinked
  have htoken : (task.proceed use origin heard known S.session).1.token = some own :=
    hsame.trans hown
  refine ⟨?_, ?_, ?_⟩
  · rw [put_self, put_self]
    exact hproceeded
  · rw [put_self, htoken]
    intro hsome
    cases hsome
  · rw [put_self, put_self, htoken]
    intro other hsome
    cases hsome
    exact ⟨rfl, hsame'.trans halone, hafter⟩

theorem Paired.own (h : Paired settings (scripts token) i token S A)
    (hS : S.Orderly settings scripts taken)
    (halike : ∀ entry ∈ (scripts token).entries, entry.Alike token 1) (step : TaskStep)
    {taken' : Nat} (hS' : (S.step queries i step).Orderly settings scripts taken')
    (hown : ∀ own, ((S.step queries i step).tasks i).token = some own → own = token) :
    Paired settings (scripts token) i token (S.step queries i step)
      (A.step queries i step) := by
  cases step with
  | run =>
      cases hnone : (S.tasks i).token with
      | none => exact h.run hS halike hnone hS' hown
      | some own =>
          have halone := (h.started own hnone).2.1
          rw [System.step, System.step, hnone, halone]
          exact h
  | call operation =>
      have hwaiting := h.task.waiting
      have hcursor := h.task.cursor
      have howns := (hS.owns i).cursor
      rw [System.step, System.step]
      generalize (S.tasks i).waiting = waiting at hwaiting
      generalize (A.tasks i).waiting = waiting' at hwaiting
      cases hwaiting with
      | some hwaiting => exact h
      | none =>
          generalize (S.tasks i).cursor = cursor at hcursor howns
          generalize (A.tasks i).cursor = cursor' at hcursor
          cases hcursor with
          | none => exact h
          | @some c c' hc =>
              have hown := howns c rfl
              obtain ⟨-, -, hlinked⟩ := h.started _ hown
              have htask : Task.Alike token 1
                  { S.tasks i with calls := (S.tasks i).calls ++ [operation] }
                  { A.tasks i with calls := (A.tasks i).calls ++ [operation] } :=
                ⟨h.task.cursor, h.task.waiting, h.task.reports⟩
              exact h.went hown htask rfl rfl
                (.call operation hc) (S.session.over ()) (A.session.over ())
                (hlinked.opened.trans hlinked.opened'.symm) hlinked.settings hc.token
                hc.token' _ _ .nil
  | answer =>
      have hwaiting := h.task.waiting
      have howns := (hS.owns i).waiting
      rw [System.step, System.step]
      generalize hw : (S.tasks i).waiting = waiting at hwaiting howns
      generalize hw' : (A.tasks i).waiting = waiting' at hwaiting
      cases hwaiting with
      | none => exact h
      | @some waiting waiting' hwaiting =>
          obtain ⟨use, origin, heard, known, coming⟩ := waiting
          obtain ⟨use', origin', heard', known', coming'⟩ := waiting'
          obtain ⟨huse, hclosed, hsettings, ht, ht', hknown, hcoming⟩ := hwaiting
          have hown := howns _ rfl
          have hmore := List.rel_append hknown (.cons hcoming .nil)
          have hwent := h.went hown h.task rfl rfl huse origin origin' hclosed hsettings ht
            ht' heard heard' hmore
          cases hcoming with
          | unanswered => exact h
          | failed hfault => exact hwent
          | reply hsaid => exact hwent
  | drop =>
      refine ⟨?_, ?_, ?_⟩
      · rw [System.step, System.step, put_self, put_self]
        exact ⟨h.task.cursor, .none, h.task.reports⟩
      · rw [System.step, System.step, put_self, put_self]
        exact h.unstarted
      · rw [System.step, System.step, put_self, put_self]
        exact h.started

theorem Orderly.token_step (hS : S.Orderly settings scripts taken) {own : Token}
    (hown : (S.tasks i).token = some own) (j : ι) (step : TaskStep) :
    ((S.step queries j step).tasks i).token = some own := by
  have hstepped := stepped_step queries (hS.owns j) step
  generalize S.step queries j step = after at hstepped ⊢
  by_cases hij : i = j
  · subst hij
    cases hstepped with
    | still => exact hown
    | quiet htoken howns => rw [put_self, htoken, hown]
    | went task use origin heard known htoken hsame =>
        rw [put_self]
        exact hsame.trans hown
    | ran hnone hwent => cases hnone.symm.trans hown
  · cases hstepped with
    | still => exact hown
    | quiet => rw [put_of_ne hij, hown]
    | went => rw [put_of_ne hij, hown]
    | ran => rw [put_of_ne hij, hown]

theorem paired_run (steps : List (ι × TaskStep))
    (hruns : steps.countP (fun step => step.2.isRun) ≤ 2 ^ 64) (i : ι) (token : Token)
    (halike : ∀ entry ∈ (scripts token).entries, entry.Alike token 1)
    (hown : ∀ own,
      (((start (Scripts.mk scripts) settings).run queries steps).tasks i).token =
        some own → own = token) :
    Paired settings (scripts token) i token
      ((start (Scripts.mk scripts) settings).run queries steps)
      ((start (Scripts.mk fun _ => scripts token) settings).run queries
        (steps.filter fun step => step.1 = i)) := by
  induction steps using List.reverseRecOn with
  | nil =>
      refine ⟨⟨.none, .none, .nil⟩, fun _ => ⟨rfl, rfl⟩, fun own hsome => ?_⟩
      cases hsome
  | append_singleton steps last ih =>
      -- The last step is the query's own, and taken alone too, or another's.
      obtain ⟨j, step⟩ := last
      have hbefore : steps.countP (fun step => step.2.isRun) ≤ 2 ^ 64 := by
        rw [List.countP_append] at hruns
        omega
      obtain ⟨taken, -, hS⟩ := orderly_run queries settings scripts steps hbefore
      obtain ⟨taken', -, hS'⟩ := orderly_run queries settings scripts
        (steps ++ [(j, step)]) hruns
      rw [run_concat] at hS' hown ⊢
      have hpaired := ih hbefore fun own hsome => hown own (hS.token_step hsome j step)
      rw [List.filter_append]
      by_cases hj : j = i
      · subst hj
        rw [List.filter_singleton]
        simp only [decide_true, cond_true]
        rw [run_concat]
        exact hpaired.own hS halike step hS' hown
      · rw [List.filter_singleton]
        simp only [hj, decide_false, cond_false, List.append_nil]
        exact hpaired.other hS hj hS'

end System

def Task.requests {σ : Type} (task : Task) (s : Session σ) : List Request :=
  (task.token.map s.requestsOf).getD []

namespace System

variable [DecidableEq ι]

/-- Whatever else is done on the session, a query that is used on it sends the same
requests as when it is used alone on a session of its own with the same settings and
its script, and its calls return the same, except that its token is one there. -/
theorem run_alike_alone (queries : ι → Query) (settings : Settings)
    (scripts : Token → Script) (steps : List (ι × TaskStep))
    (hruns : steps.countP (fun step => step.2.isRun) ≤ 2 ^ 64) (i : ι) :
    let S := (start (Scripts.mk scripts) settings).run queries steps
    let token := (S.tasks i).token.getD 1
    let A := (start (Scripts.mk fun _ => scripts token) settings).run queries
      (steps.filter fun step => step.1 = i)
    (∀ entry ∈ (scripts token).entries, entry.Alike token 1) →
      (S.tasks i).Alike token 1 (A.tasks i) ∧
        (S.tasks i).requests S.session = (A.tasks i).requests A.session := by
  intro S token A halike
  have hown : ∀ own, (S.tasks i).token = some own → own = token := by
    intro own hsome
    simp only [token, hsome, Option.getD_some]
  have hpaired := paired_run steps hruns i token halike hown
  refine ⟨hpaired.task, ?_⟩
  unfold Task.requests
  cases hsome : (S.tasks i).token with
  | none =>
      have halone : (A.tasks i).token = none := (hpaired.unstarted hsome).1
      rw [halone]
      rfl
  | some own =>
      obtain ⟨rfl, halone, hlinked⟩ := hpaired.started own hsome
      have halone : (A.tasks i).token = some 1 := halone
      rw [halone]
      exact hlinked.requests

/-- A part of one element, and the sequence of one element that follows it. -/
def firstPart (token : Token) : Bytes :=
  .ofText ("\x7b\"token\":" ++ toString token.toNat ++
    ",\"type\":\"partial\",\"batch\":[\"x\"],\"continuation\":\"a\"\x7d")

def lastPart (token : Token) : Bytes :=
  .ofText ("\x7b\"token\":" ++ toString token.toNat ++
    ",\"type\":\"sequence\",\"batch\":[\"y\"]\x7d")

/-- Under every token there are two parts. -/
def twoParts : Token → Script := fun _ => ⟨[.reply firstPart, .reply lastPart], none, 0⟩

theorem alike_twoParts : ∀ entry ∈ (twoParts 2).entries, entry.Alike 2 1 := by
  have hfirst : Reply.decode (firstPart 2) 2 = .ok (.batch [.string "x"] (some "a")) :=
    Reply.decode_texts [some "x"] (by decide +kernel)
  have hfirst' : Reply.decode (firstPart 1) 1 = .ok (.batch [.string "x"] (some "a")) :=
    Reply.decode_texts [some "x"] (by decide +kernel)
  have hlast : Reply.decode (lastPart 2) 2 = .ok (.batch [.string "y"] none) :=
    Reply.decode_texts [some "y"] (by decide +kernel)
  have hlast' : Reply.decode (lastPart 1) 1 = .ok (.batch [.string "y"] none) :=
    Reply.decode_texts [some "y"] (by decide +kernel)
  have hpart : (ScriptEntry.reply firstPart).Alike 2 1 := by
    rw [ScriptEntry.Alike, hfirst, hfirst']
    exact .ok _
  have hsequence : (ScriptEntry.reply lastPart).Alike 2 1 := by
    rw [ScriptEntry.Alike, hlast, hlast']
    exact .ok _
  simp [twoParts, hpart, hsequence]

/-- Two queries start, and the second is answered first.  It waits for its last part
while the first takes an element, waits for a part of its own and is given up, and
then it is read to its end. -/
def overlapping : List (Bool × TaskStep) :=
  [(false, .run), (true, .run), (true, .answer), (true, .call .next),
    (true, .call .next), (false, .answer), (false, .call .next), (false, .call .next),
    (false, .drop), (true, .answer), (true, .call .next)]

def nullQueries : Bool → Query := fun _ => .null

theorem overlapping_reports :
    let S := (start (Scripts.mk twoParts) {}).run nullQueries overlapping
    (S.tasks true).token = some 2 ∧ (S.tasks true).reports.length = 4 ∧
      (S.tasks true).cursor.map Cursor.isExhausted = some true ∧
      (S.tasks false).cursor.map Cursor.awaiting = some true := by
  decide +kernel

/-- The second query is read as if it were alone. -/
theorem run_alike_alone_answered_first :
    let S := (start (Scripts.mk twoParts) {}).run nullQueries overlapping
    let A := (start (Scripts.mk fun _ => twoParts 2) {}).run nullQueries
      (overlapping.filter fun step => step.1 = true)
    (S.tasks true).token = some 2 ∧ (S.tasks true).reports.length = 4 ∧
      (S.tasks true).cursor.map Cursor.isExhausted = some true ∧
      (S.tasks false).cursor.map Cursor.awaiting = some true ∧
      (S.tasks true).Alike 2 1 (A.tasks true) ∧
      (S.tasks true).requests S.session = (A.tasks true).requests A.session := by
  obtain ⟨htoken, hreports, hexhausted, hawaiting⟩ := overlapping_reports
  have halike := run_alike_alone nullQueries {} twoParts overlapping (by decide) true
  simp only [htoken, Option.getD_some] at halike
  exact ⟨htoken, hreports, hexhausted, hawaiting, halike alike_twoParts⟩

end System

end DocumentQuery
