import RubySupervisor.Proofs.Session.Custody
import RubySupervisor.Proofs.Workspace.Silence

/-!
# Custody of processes in a workspace

A workspace holds the process of its installed client; earlier clients are released only after they
have been stopped. This file follows the calls on all transports of a workspace through its
operations: each keeps custody, and each but a careless restart keeps the process of the installed
client the only live one.
-/

namespace RubySupervisor.Workspace

open Session (Custody Sole)

/-- What a trace knows of the processes of a workspace. -/
structure Ledger (log : List Exchange) (w : Workspace) : Prop where
  own : ∀ client, w.client = some client →
    client.context.transport < w.transports ∧ Custody client.context.transport log client.session
  past : ∀ p, p ∈ started log ∨ p ∈ stopped log → p.1 < w.transports

/-- The process that the installed client holds. -/
def held? (w : Workspace) : Option (Nat × ServerId) :=
  w.client.bind fun client => client.session.current.map fun id => (client.context.transport, id)

/-- A trace is exclusive, and what is live behind it is held by the installed client. -/
structure Alone (log : List Exchange) (w : Workspace) : Prop where
  exclusive : Exclusive [] log
  held : ∀ p, Alive log p → w.held? = some p

/-- The installed client holds no process, or observers are shown that it runs. -/
def Careful (w : Workspace) : Prop := w.held? = none ∨ w.state = .running

/-- What the installed client holds is what its session holds. -/
theorem held?_eq {w : Workspace} {client : Client} (hclient : w.client = some client) :
    w.held? = w.session.current.map fun id => (client.context.transport, id) := by
  simp [held?, session, hclient]

/-- What the installed client holds after a change of its session. -/
theorem held?_withSession {w : Workspace} {client : Client} (hclient : w.client = some client)
    (s : Session) :
    (w.withSession s).held? = s.current.map fun id => (client.context.transport, id) := by
  simp [held?, withSession, hclient]

/-- A task of a workspace keeps the ledger, and under a condition it keeps the held process
alone. -/
def Guards {α : Type} (condition : Prop) (t : Task Workspace α) (w : Workspace) : Prop :=
  ∀ log, Ledger log w → t.Ensures (fun l _ w' =>
    Ledger (log ++ talk l) w' ∧ (condition → Alone log w → Alone (log ++ talk l) w')) w

/-- Tasks that guard one after the other guard together. -/
theorem Guards.bind {α β : Type} {condition : Prop} {w : Workspace} {t : Task Workspace α}
    {f : α → Task Workspace β} {R : α → Workspace → Prop} (h : Guards condition t w)
    (hresult : t.Ensures (fun _ a w' => R a w') w)
    (hf : ∀ a w', R a w' → Guards condition (f a) w') : Guards condition (t >>= f) w := by
  intro log hledger
  refine (Task.ensures_bind _ t f w).2 (((h log hledger).and hresult).mono fun l a w' hfirst => ?_)
  obtain ⟨⟨hledger', halone⟩, hr⟩ := hfirst
  refine (hf a w' hr (log ++ talk l) hledger').mono fun l' b w₁ hsecond => ?_
  rw [talk_append, ← List.append_assoc]
  exact ⟨hsecond.1, fun hcondition h => hsecond.2 hcondition (halone hcondition h)⟩

/-- Tasks that guard in every workspace guard together. -/
theorem Guards.andThen {α β : Type} {condition : Prop} {w : Workspace} {t : Task Workspace α}
    {f : α → Task Workspace β} (h : Guards condition t w)
    (hf : ∀ a w', Guards condition (f a) w') : Guards condition (t >>= f) w :=
  h.bind (R := fun _ _ => True) (Task.ensures_of_yields fun _ _ _ _ => trivial)
    fun a w' _ => hf a w'

/-- A task leaves the transports and the installed client alone. -/
def Aside {α : Type} (t : Task Workspace α) : Prop :=
  ∀ w, t.Ensures (fun l _ w' =>
    talk l = [] ∧ w'.client = w.client ∧ w'.transports = w.transports) w

/-- Tasks aside are aside together. -/
theorem Aside.bind {α β : Type} {t : Task Workspace α} {f : α → Task Workspace β} (h : Aside t)
    (hf : ∀ a, Aside (f a)) : Aside (t >>= f) := by
  intro w
  refine (Task.ensures_bind _ t f w).2 ((h w).mono fun l a w' hfirst => ?_)
  refine (hf a w').mono fun l' b w₁ hsecond => ?_
  obtain ⟨htalk, hclient, htransports⟩ := hfirst
  obtain ⟨htalk', hclient', htransports'⟩ := hsecond
  exact ⟨by rw [talk_append, htalk, htalk', List.append_nil], hclient'.trans hclient,
    htransports'.trans htransports⟩

/-- A task only prepares: it leaves the transports, the installed client and the shown state
alone. -/
def Prepares {α : Type} (t : Task Workspace α) : Prop :=
  ∀ w, t.Ensures (fun l _ w' => talk l = [] ∧ w'.client = w.client ∧
    w'.transports = w.transports ∧ w'.state = w.state) w

/-- What prepares is aside. -/
theorem Prepares.aside {α : Type} {t : Task Workspace α} (h : Prepares t) : Aside t := fun w =>
  (h w).mono fun _ _ _ hsame => ⟨hsame.1, hsame.2.1, hsame.2.2.1⟩

/-- Tasks that prepare prepare together. -/
theorem Prepares.bind {α β : Type} {t : Task Workspace α} {f : α → Task Workspace β}
    (h : Prepares t) (hf : ∀ a, Prepares (f a)) : Prepares (t >>= f) := by
  intro w
  refine (Task.ensures_bind _ t f w).2 ((h w).mono fun l a w' hfirst => ?_)
  refine (hf a w').mono fun l' b w₁ hsecond => ?_
  obtain ⟨htalk, hclient, htransports, hstate⟩ := hfirst
  obtain ⟨htalk', hclient', htransports', hstate'⟩ := hsecond
  exact ⟨by rw [talk_append, htalk, htalk', List.append_nil], hclient'.trans hclient,
    htransports'.trans htransports, hstate'.trans hstate⟩

theorem prepares_pure {α : Type} (a : α) : Prepares (pure a) := fun _ => ⟨rfl, rfl, rfl, rfl⟩

theorem prepares_get : Prepares Task.get := fun _ => ⟨rfl, rfl, rfl, rfl⟩

theorem prepares_ask {c : Call} (h : c.isTransport = false) : Prepares (Task.ask c) := fun w =>
  ((Task.silent_ask h).ensures w).and (R := fun _ _ w' =>
    w'.client = w.client ∧ w'.transports = w.transports ∧ w'.state = w.state)
      fun _ => ⟨rfl, rfl, rfl⟩

theorem storePart_lawful : storePart.Lawful := ⟨fun _ _ => rfl, fun _ _ _ => rfl, fun _ => rfl⟩

/-- A silent task on the store prepares. -/
theorem prepares_storePart {α : Type} {t : Task Store α} (h : t.Silent) :
    Prepares (t.within storePart) := fun w =>
  (Task.ensures_within storePart_lawful _ t w).2 ((h.ensures w.store).mono fun _ _ _ htalk =>
    ⟨htalk, rfl, rfl, rfl⟩)

theorem aside_pure {α : Type} (a : α) : Aside (pure a) := (prepares_pure a).aside

theorem aside_setState (state : LifecycleState) : Aside (setState state) := fun _ => ⟨rfl, rfl, rfl⟩

/-- A ledger stays true where the transports and the installed client are left alone. -/
theorem Ledger.aside {log : List Exchange} {w w' : Workspace} (h : Ledger log w)
    (hclient : w'.client = w.client) (htransports : w'.transports = w.transports) :
    Ledger log w' :=
  ⟨by rw [hclient, htransports]; exact h.own, by rw [htransports]; exact h.past⟩

/-- What is alone stays alone where the installed client is left alone. -/
theorem Alone.aside {log : List Exchange} {w w' : Workspace} (h : Alone log w)
    (hclient : w'.client = w.client) : Alone log w' :=
  ⟨h.exclusive, fun p hp => by rw [held?, hclient]; exact h.held p hp⟩

/-- What is aside guards. -/
theorem Aside.guards {α : Type} {condition : Prop} {t : Task Workspace α} (h : Aside t)
    (w : Workspace) : Guards condition t w := by
  intro log hledger
  refine (h w).mono fun l a w' haside => ?_
  obtain ⟨htalk, hclient, htransports⟩ := haside
  rw [htalk, List.append_nil]
  exact ⟨hledger.aside hclient htransports, fun _ halone => halone.aside hclient⟩

/-- A task on the session of the installed client ensures what it ensures on that session. A state
that the session does not write stays where it was. -/
theorem ensures_sessionPart {α : Type} {Q : List Exchange → α → Workspace → Prop} {w : Workspace}
    {client : Client} (hclient : w.client = some client)
    (hsame : ∀ l a, Q l a (w.withSession w.session) → Q l a w) {t : Task Session α}
    (h : t.Ensures (fun l a s => Q l a (w.withSession s)) w.session) :
    (t.within sessionPart).Ensures Q w := by
  have hget (s : Session) : sessionPart.get (w.withSession s) = s := by
    simp [sessionPart, session, withSession, hclient]
  have hset (s s' : Session) : sessionPart.set (w.withSession s) s' = w.withSession s' := by
    simp [sessionPart, withSession, hclient]
  -- once the session has written, the workspace holds the written state, and the rest is by
  -- induction from there
  have hwritten {Q : List Exchange → α → Workspace → Prop} (t : Task Session α) (s : Session)
      (h : t.Ensures (fun l a s => Q l a (w.withSession s)) s) :
      (t.within sessionPart).Ensures Q (w.withSession s) := by
    induction t generalizing s Q with
    | done a => exact h
    | read next ih =>
      change ((next (sessionPart.get (w.withSession s))).within sessionPart).Ensures Q _
      rw [hget]
      exact ih s s h
    | write s' next ih =>
      change (next.within sessionPart).Ensures Q (sessionPart.set (w.withSession s) s')
      rw [hset]
      exact ih s' h
    | call c next ih => exact fun answer => ih answer s (h answer)
  -- before that, the induction is on the part of the task that only reads and calls
  induction t generalizing Q with
  | done a => exact hsame [] a h
  | read next ih => exact ih w.session hsame h
  | write s' next ih => exact hwritten next s' h
  | call c next ih => exact fun answer => ih answer (fun l a => hsame _ a) (h answer)

/-- A ledger of a workspace is custody for the session of its installed client. -/
theorem Ledger.custody {log : List Exchange} {w : Workspace} {client : Client}
    (h : Ledger log w) (hclient : w.client = some client) :
    Custody client.context.transport log w.session := by
  have hcustody := (h.own client hclient).2
  have hsession : w.session = { client.session with state := w.state } := by
    simp [session, hclient]
  rw [hsession]
  exact ⟨hcustody.live, hcustody.past⟩

/-- Custody for the session of the installed client makes a ledger, as long as transports do not
run ahead. -/
theorem Custody.ledger {log : List Exchange} {w : Workspace} {client : Client} {s : Session}
    (h : Custody client.context.transport log s) (hclient : w.client = some client)
    (hnumber : client.context.transport < w.transports)
    (hpast : ∀ p, p ∈ started log ∨ p ∈ stopped log → p.1 < w.transports) :
    Ledger log (w.withSession s) := by
  refine ⟨fun other hother => ?_, hpast⟩
  simp only [withSession, hclient, Option.map_some, Option.some.injEq] at hother
  subst hother
  exact ⟨hnumber, h⟩

/-- The state that the session of a client was left with does not matter to a ledger. -/
theorem ledger_of_withSession {log : List Exchange} {w : Workspace} {client : Client}
    (h : Ledger log (w.withSession w.session)) (hclient : w.client = some client) :
    Ledger log w := by
  refine ⟨fun other hother => ?_, h.past⟩
  obtain rfl := Option.some.inj (hother.symm.trans hclient)
  have hown := h.own { other with session := w.session } (by simp [withSession, hclient])
  refine ⟨hown.1, ?_⟩
  have hcustody := hown.2
  have hsession : w.session = { other.session with state := w.state } := by
    simp [session, hclient]
  rw [hsession] at hcustody
  exact ⟨hcustody.live, hcustody.past⟩

/-- The state that the session of a client was left with does not matter to what is alone. -/
theorem alone_withSession_iff {log : List Exchange} {w : Workspace} {client : Client}
    (hclient : w.client = some client) : Alone log (w.withSession w.session) ↔ Alone log w := by
  have hheld : (w.withSession w.session).held? = w.held? := by
    rw [held?_withSession hclient, held?_eq hclient]
  exact ⟨fun h => ⟨h.exclusive, by rw [← hheld]; exact h.held⟩,
    fun h => ⟨h.exclusive, by rw [hheld]; exact h.held⟩⟩

/-- What a session guards, the workspace guards on the session of its installed client. -/
theorem guards_sessionPart {α : Type} {condition : Prop} {t : Task Session α} {w : Workspace}
    {client : Client} (hclient : w.client = some client)
    (h : Session.Guards client.context condition t w.session) :
    Guards condition (t.within sessionPart) w := by
  intro log hledger
  have hnumber := (hledger.own client hclient).1
  refine ensures_sessionPart hclient (fun l a hkept => ?_) ((h log (hledger.custody hclient)).mono
    fun l a s hguarded => ?_)
  · exact ⟨ledger_of_withSession hkept.1 hclient, fun hcondition halone =>
      (alone_withSession_iff hclient).1 (hkept.2 hcondition halone)⟩
  · obtain ⟨hcustody, hown, hsole⟩ := hguarded
    refine ⟨Custody.ledger hcustody hclient hnumber fun p hp => ?_, fun hcondition halone => ?_⟩
    · rw [started_append, stopped_append, List.mem_append, List.mem_append] at hp
      -- the processes of the log are numbered by earlier clients, those of the task by this one
      rcases hp with (hp | hp) | (hp | hp)
      · exact hledger.past p (.inl hp)
      · exact hown p (.inl hp) ▸ hnumber
      · exact hledger.past p (.inr hp)
      · exact hown p (.inr hp) ▸ hnumber
    · have hheld := hsole hcondition ⟨halone.exclusive, fun p hp => by
        have heq := halone.held p hp
        rw [held?_eq hclient, Option.map_eq_some_iff] at heq
        obtain ⟨id, hid, heq⟩ := heq
        exact ⟨id, hid, heq.symm⟩⟩
      refine ⟨hheld.exclusive, fun p hp => ?_⟩
      obtain ⟨id, hid, rfl⟩ := hheld.held p hp
      rw [held?_withSession hclient, hid, Option.map_some]

/-- What the session of every installed client guards, the workspace guards. -/
theorem guards_withClient {α : Type} {condition : Prop} {absent : α}
    {present : SessionContext → Task Session α} {w : Workspace}
    (h : ∀ client, w.client = some client →
      Session.Guards client.context condition (present client.context) w.session) :
    Guards condition (withClient absent present) w := by
  intro log hledger
  refine (Task.ensures_bind _ _ _ w).2 ?_
  rw [Task.ensures_get]
  cases hclient : w.client with
  | none => exact (aside_pure absent).guards w log hledger
  | some client => exact guards_sessionPart hclient (h client hclient) log hledger

/-- After a stop the installed client holds no process. -/
theorem ensures_stop_released (w : Workspace) :
    (withClient (.ok ()) Session.stop).Ensures (fun _ _ w' => w'.held? = none) w := by
  refine (Task.ensures_bind _ _ _ w).2 ?_
  rw [Task.ensures_get]
  cases hclient : w.client with
  | none =>
    change w.held? = none
    simp [held?, hclient]
  | some client =>
    refine ensures_sessionPart hclient (fun l a hreleased => ?_)
      ((Session.ensures_stop_released client.context w.session).mono fun l a s hnone => ?_)
    · rwa [held?_withSession hclient, ← held?_eq hclient] at hreleased
    · rw [held?_withSession hclient, hnone, Option.map_none]

/-- Releasing the client guards: it has been stopped before. -/
theorem guards_releaseClient (condition : Prop) (w : Workspace) :
    Guards condition releaseClient w := by
  refine (guards_withClient fun client _ => Session.guards_stop client.context _ w.session).bind
    (ensures_stop_released w) fun _ w' hreleased log hledger => ?_
  simp only [Task.ensures_change, talk_nil, List.append_nil]
  refine ⟨⟨fun client hclient => by simp at hclient, hledger.past⟩, fun _ halone => ?_⟩
  refine ⟨halone.exclusive, fun p hp => ?_⟩
  have heq := halone.held p hp
  rw [hreleased] at heq
  cases heq

/-- After its release no client is installed. -/
theorem ensures_releaseClient (w : Workspace) :
    releaseClient.Ensures (fun _ _ w' => w'.client = none) w := by
  refine (Task.ensures_bind _ _ _ w).2 (Task.ensures_of_yields fun l a w' _ => ?_)
  exact rfl

/-- Installing a client where there is none guards: its transport is new. -/
theorem guards_installClient {c : WorkspaceContext} {environment : RuntimeEnvironment}
    (condition : Prop) {w : Workspace} (hnone : w.client = none) :
    Guards condition (installClient c environment) w := by
  intro log hledger
  simp only [installClient, Task.ensures_change, talk_nil, List.append_nil]
  refine ⟨⟨fun client hclient => ?_, fun p hp => Nat.lt_succ_of_lt (hledger.past p hp)⟩,
    fun _ halone => ⟨halone.exclusive, fun p hp => ?_⟩⟩
  · obtain rfl := Option.some.inj hclient
    refine ⟨Nat.lt_succ_self _, fun id hid => by simp [Session.fresh] at hid, fun id hid => ?_⟩
    exact absurd (hledger.past _ hid) (Nat.lt_irrefl _)
  · have heq := halone.held p hp
    simp [held?, hnone] at heq

/-- The probes behind a start guard. -/
theorem guards_probeServer (condition : Prop) (w : Workspace) : Guards condition probeServer w := by
  refine (guards_withClient fun client _ =>
    Session.guards_afterStart client.context _ w.session).andThen fun answer w' => ?_
  split
  · exact (aside_pure ()).guards w'
  · exact (prepares_ask rfl).aside.guards w'

theorem aside_failing {α : Type} (answer : Outcome α) : Aside (failing answer) := by
  unfold failing
  split
  · exact aside_pure _
  · exact (aside_setState _).bind fun _ => aside_pure _

theorem prepares_checkWritable (c : WorkspaceContext) : Prepares (checkWritable c) := by
  refine (prepares_ask rfl).bind fun made => ?_
  split <;> exact prepares_pure _

theorem prepares_manageServerGem (c : WorkspaceContext) (environment : RuntimeEnvironment) :
    Prepares (manageServerGem c environment) := by
  refine prepares_get.bind fun w => ?_
  split
  · exact prepares_pure _
  · refine (prepares_ask rfl).bind fun now => ?_
    refine (prepares_storePart (ServerGem.silent_installOrUpdate _ _ _)).bind fun managed => ?_
    split <;> exact prepares_pure _

theorem prepares_recordActivation (answer : Except RubyError RuntimeEnvironment) :
    Prepares (recordActivation answer) := by
  unfold recordActivation
  split <;> exact fun _ => ⟨rfl, rfl, rfl, rfl⟩

theorem prepares_activateRuby (c : WorkspaceContext) : Prepares (activateRuby c) :=
  prepares_get.bind fun _ => (prepares_storePart (Resolution.silent_activate _)).bind fun _ =>
    prepares_recordActivation _

theorem prepares_currentRuby (c : WorkspaceContext) : Prepares (currentRuby c) := by
  refine prepares_get.bind fun w => ?_
  split
  · exact prepares_pure _
  · exact prepares_activateRuby c

/-- The stages of a start guard: the old client is released before the new one is installed, and the
new one holds nothing when it is started. -/
theorem guards_startWith (c : WorkspaceContext) (environment : RuntimeEnvironment)
    (condition : Prop) (w : Workspace) : Guards condition (startWith c environment) w := by
  refine ((prepares_checkWritable c).aside.guards w).andThen fun writable w₁ => ?_
  refine ((aside_failing _).guards w₁).andThen fun checked w₂ => ?_
  split
  · exact (aside_pure _).guards w₂
  · refine ((prepares_manageServerGem c environment).aside.guards w₂).andThen fun managed w₃ => ?_
    refine ((aside_failing _).guards w₃).andThen fun ready w₄ => ?_
    split
    · exact (aside_pure _).guards w₄
    · refine (guards_releaseClient condition w₄).bind (ensures_releaseClient w₄)
        fun _ w₅ hnone => ?_
      refine (guards_installClient condition hnone).bind (R := fun _ w' => w'.held? = none)
        rfl fun _ w₆ hfresh => ?_
      refine (guards_withClient fun client hclient =>
        (Session.guards_start client.context w₆.session).weaken fun _ => .inl ?_).andThen
          fun started w₇ => ?_
      · simpa [held?_eq hclient] using hfresh
      · split
        · exact (aside_pure _).guards w₇
        · exact (guards_probeServer condition w₇).andThen fun _ w₈ => (aside_pure _).guards w₈

/-- Starting over guards. -/
theorem guards_startOver (c : WorkspaceContext) (reactivate : Bool) (condition : Prop)
    (w : Workspace) : Guards condition (startOver c reactivate) w := by
  have hactive {t : Task Workspace (Outcome RuntimeEnvironment)} (ht : Aside t)
      {f : Outcome RuntimeEnvironment → Task Workspace (Outcome Unit)}
      (hf : ∀ active w, Guards condition (f active) w) :
      Guards condition (do f (← failing (← t))) w :=
    (ht.guards w).andThen fun answer w' => ((aside_failing answer).guards w').andThen hf
  unfold startOver
  split
  · refine hactive (prepares_activateRuby c).aside fun active w' => ?_
    split
    · exact (aside_pure _).guards w'
    · exact guards_startWith c _ condition w'
  · refine hactive (prepares_currentRuby c).aside fun active w' => ?_
    split
    · exact (aside_pure _).guards w'
    · exact guards_startWith c _ condition w'

/-- Choosing a Ruby guards. -/
theorem guards_selectRuby (c : WorkspaceContext) (condition : Prop) (w : Workspace) :
    Guards condition (selectRuby c) w := by
  refine (prepares_get.aside.guards w).andThen fun _ w₁ => ?_
  refine ((prepares_storePart (Resolution.silent_changeVersion _)).aside.guards w₁).andThen
    fun answer w₂ => ?_
  refine ((prepares_recordActivation answer).aside.guards w₂).andThen fun recorded w₃ => ?_
  refine ((aside_failing recorded).guards w₃).andThen fun chosen w₄ => ?_
  split
  · exact (aside_pure _).guards w₄
  · exact guards_startOver c false condition w₄

/-- A stop guards. -/
theorem guards_stop (condition : Prop) (w : Workspace) : Guards condition stop w :=
  (guards_withClient fun client _ => Session.guards_stop client.context _ w.session).andThen
    fun _ w' => (aside_pure _).guards w'

/-- Disposing of a workspace guards. -/
theorem guards_dispose (condition : Prop) (w : Workspace) : Guards condition dispose w :=
  (guards_releaseClient condition w).andThen fun _ w' => (aside_setState _).guards w'

/-- A restart guards; in a careful workspace it keeps the held process alone. -/
theorem guards_restart (c : WorkspaceContext) (w : Workspace) :
    Guards w.Careful (restart c) w := by
  intro log hledger
  refine (Task.ensures_bind _ _ _ w).2 ?_
  rw [Task.ensures_get]
  cases hclient : w.client with
  | some client =>
    refine guards_sessionPart hclient ((Session.guards_restart client.context w.session).weaken
      fun hcareful => hcareful.imp (fun hnone => ?_) fun hstate => ?_) log hledger
    · simpa [held?_eq hclient] using hnone
    · simpa [session, hclient] using hstate
  | none =>
    have hstart : Guards w.Careful (do
        let files : FileTree ← Task.ask .files
        if Session.rebaseInProgress files c.root then return ()
        let _ ← startOver c true) w := by
      refine ((prepares_ask rfl).aside.guards w).andThen fun files w₁ => ?_
      split
      · exact (aside_pure ()).guards w₁
      · exact (guards_startOver c true _ w₁).andThen fun _ w₂ => (aside_pure ()).guards w₂
    exact hstart log hledger

/-- Replacing the settings guards. -/
theorem guards_updateSettings (c : WorkspaceContext) (settings : Settings) (condition : Prop)
    (w : Workspace) : Guards condition (updateSettings c settings) w := by
  have hput (w w' : Workspace) (hclient : w'.client = w.client)
      (htransports : w'.transports = w.transports) : Guards condition (Task.put w') w := by
    intro log hledger
    simp only [Task.ensures_put, talk_nil, List.append_nil]
    exact ⟨hledger.aside hclient htransports, fun _ halone => halone.aside hclient⟩
  intro log hledger
  refine (Task.ensures_bind _ _ _ w).2 ?_
  rw [Task.ensures_get]
  refine (hput w { w with settings } rfl rfl).andThen (fun _ w₁ => ?_) log hledger
  split
  · exact (aside_pure _).guards w₁
  · split
    · exact (aside_pure _).guards w₁
    · exact guards_startOver c _ condition w₁

/-- Reading the settings again guards. -/
theorem guards_reloadSettings (c : WorkspaceContext) (condition : Prop) (w : Workspace) :
    Guards condition (reloadSettings c) w := by
  refine ((prepares_ask rfl).aside.guards w).andThen fun files w₁ => ?_
  split
  · exact (aside_pure _).guards w₁
  · exact guards_updateSettings c _ condition w₁

/-- Observing an event guards. -/
theorem guards_observe (transport : Nat) (event : TransportEvent) (condition : Prop)
    (w : Workspace) : Guards condition (observe transport event) w := by
  refine guards_withClient fun client _ => ?_
  split
  · exact Session.guards_observe client.context event _ w.session
  · exact Session.guards_pure client.context _ () w.session

theorem prepares_runTests (c : WorkspaceContext) (r : TestRunRequest) :
    Prepares (runTests c r) := by
  refine prepares_get.bind fun w => ?_
  split
  · exact prepares_pure _
  · refine (prepares_currentRuby c).bind fun ruby => ?_
    split
    · exact prepares_pure _
    · refine (prepares_ask rfl).bind fun answer => ?_
      split <;> exact prepares_pure _

theorem prepares_runTest (c : WorkspaceContext) (name : String) : Prepares (runTest c name) := by
  refine prepares_get.bind fun w => ?_
  split
  · exact prepares_pure _
  · refine (prepares_runTests c _).bind fun report => ?_
    split <;> exact prepares_pure _

theorem prepares_runTestInTerminal (c : WorkspaceContext) (line : String) :
    Prepares (runTestInTerminal c line) := by
  refine (prepares_currentRuby c).bind fun ruby => ?_
  split
  · exact prepares_pure _
  · exact (prepares_ask rfl).bind fun _ => prepares_pure _

theorem prepares_installServer (c : WorkspaceContext) : Prepares (installServer c) := by
  refine (prepares_currentRuby c).bind fun ruby => ?_
  split
  · exact prepares_pure _
  · exact prepares_manageServerGem c _

/-- Every action but a restart guards. -/
theorem guards_perform (c : WorkspaceContext) {action : Action} (arguments : List Json)
    (condition : Prop) (w : Workspace) (haction : action ≠ .restart) :
    Guards condition (perform c action arguments) w := by
  unfold perform
  split
  · split
    · exact ((prepares_runTest c _).bind fun _ => prepares_pure _).aside.guards w
    · exact ((prepares_runTests c _).bind fun _ => prepares_pure _).aside.guards w
  · split
    · exact ((prepares_runTestInTerminal c _).bind fun _ => prepares_pure _).aside.guards w
    · exact (aside_pure _).guards w
  · exact guards_startOver c true condition w
  · exact guards_stop condition w
  · exact absurd rfl haction
  · exact ((prepares_installServer c).bind fun _ => prepares_pure _).aside.guards w
  · exact (prepares_get.aside.guards w).andThen fun _ w' => guards_updateSettings c _ condition w'
  · exact (prepares_get.aside.guards w).andThen fun _ w' => guards_updateSettings c _ condition w'
  · exact (aside_pure _).guards w

end RubySupervisor.Workspace
