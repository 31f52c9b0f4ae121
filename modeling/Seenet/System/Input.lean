import Seenet.Buffer.Growth
import Seenet.Lib.Fifo
import Seenet.System.Safety

/-!
# What the users read

The bytes of a connection on their way to its user: the kernel delivers them to `handleRead`, they wait in
`inputBuffer`, and the user takes them from there.

* `Feeds` — what a step has to do with it: only `handleRead`, `retrieve` and the construction of a connection do
  anything.
* **`input_intact`** — for every connection, what the user has taken, followed by what is in the buffer, is what
  was delivered; and `m_messageCallback` was called once for every delivery.
-/

namespace Seenet

open Channel

namespace Buffer

variable {mem : Memory} {b b' : Buffer} {data : List UInt8} {n : Except Errno ℕ}

/-- **A read that returns has appended** what was delivered. -/
lemma Wf.readFd (h : b.Wf) (hok : b.readFd mem (.bytes data) = .ok (n, b')) :
    b'.Wf ∧ b'.toList = b.toList ++ data ∧ n = .ok data.length := by
  have hlength := readFd_length hok
  rcases Nat.lt_or_ge b.wirtableBytes data.length with hgt | hle
  · have hoffered : data.length ≤ b.offered := by
      by_contra hmany
      rw [Nat.not_le, offered] at hmany
      simp [Buffer.readFd, hmany] at hok
    obtain ⟨first, hrep, -, -, hread⟩ := readFd_of_gt mem h.represents hgt hoffered
    rw [hread, bind_eq_ok] at hok
    obtain ⟨b₁, happend, hok⟩ := hok
    obtain ⟨-, rfl⟩ := Prod.mk.inj (Except.ok.inj hok)
    have hrep' := append_represents hrep happend
    refine ⟨hrep'.wf, ?_, hlength⟩
    rw [hrep'.toList_eq]
    simp [ByteQueue.append]
  · obtain ⟨b₁, hread, hrep⟩ := readFd_of_le mem h.represents hle
    rw [hread] at hok
    obtain ⟨-, rfl⟩ := Prod.mk.inj (Except.ok.inj hok)
    exact ⟨hrep.wf, hrep.toList_eq, hlength⟩

end Buffer

namespace System

open TcpConnection

variable {cfg : Setting} {mem : Memory} {s s' s'' : System} {l : LoopId} {i j : ℕ} {a : Action}

/-! ## Steps that do not read -/

/-- Nothing was read, and nobody has come. -/
structure Still (s s' : System) : Prop where
  accepted_eq : s'.accepted = s.accepted
  naming_eq : (s'.ipPort, s'.name, s'.nextConnID) = (s.ipPort, s.name, s.nextConnID)
  name_eq : ∀ i, (s'.conn i).name = (s.conn i).name
  alive : ∀ i, s'.alive i = true → s.alive i = true
  inputBuffer_eq : ∀ i, (s'.conn i).inputBuffer = (s.conn i).inputBuffer
  messages_eq : ∀ i, (s'.view i).messages = (s.view i).messages

lemma Still.refl (s : System) : s.Still s := ⟨rfl, rfl, fun _ => rfl, fun _ h => h, fun _ => rfl, fun _ => rfl⟩

lemma Still.trans (h : s.Still s') (h' : s'.Still s'') : s.Still s'' where
  accepted_eq := h'.accepted_eq.trans h.accepted_eq
  naming_eq := h'.naming_eq.trans h.naming_eq
  name_eq i := (h'.name_eq i).trans (h.name_eq i)
  alive i hi := h.alive i (h'.alive i hi)
  inputBuffer_eq i := (h'.inputBuffer_eq i).trans (h.inputBuffer_eq i)
  messages_eq i := (h'.messages_eq i).trans (h.messages_eq i)

/-- What leaves the connections alone. -/
lemma Still.of_eq (haccepted : s'.accepted = s.accepted)
    (hnaming : (s'.ipPort, s'.name, s'.nextConnID) = (s.ipPort, s.name, s.nextConnID))
    (halive : ∀ i, s'.alive i = true → s.alive i = true) (hconn : s'.conn = s.conn) : s.Still s' := by
  refine ⟨haccepted, hnaming, fun i => ?_, halive, fun i => ?_, fun i => ?_⟩
  · rw [hconn]
  · rw [hconn]
  · simp only [messages, view, hconn]

variable {c c' : TcpConnection ChannelId}

/-- A function of a connection. -/
lemma put_still (h : (s.view i).Frames c) : s.Still (s.put i c) := by
  refine ⟨rfl, rfl, fun j => (s.put_conn_const i c j).1, fun _ hj => hj, fun j => ?_, fun j => ?_⟩
  · by_cases hji : j = i
    · rw [hji, ← show (s.view i).inputBuffer = (s.conn i).inputBuffer from rfl, ← h.inputBuffer_eq]
      simp [put]
    · rw [put_conn_of_ne hji]
  · by_cases hji : j = i
    · rw [hji, ← h.messages_eq]
      simp [messages, view, put]
    · simp only [messages, view, put_conn_of_ne hji]

lemma handleClose_still (hok : s.handleClose l i c = .ok s') : ∃ c', c.Frames c' ∧ (s.put i c').Still s' := by
  rw [handleClose, bind_eq_ok] at hok
  obtain ⟨c', hclose, hs'⟩ := hok
  rw [← Except.ok.inj hs']
  exact ⟨c', beginClose_frames hclose, .of_eq rfl rfl (fun _ h => h) rfl⟩

lemma runTask_still {t : Task} {o : WriteOutcome} (hok : s.runTask mem l o t = .ok s') : s.Still s' := by
  cases t with
  | connectEstablished i =>
      simp only [runTask, bind_eq_ok, pure_eq_ok, Except.ok.injEq] at hok
      obtain ⟨-, -, c, hc, rfl⟩ := hok
      exact put_still (connectEstablished_frames hc)
  | removeConnectionInLoop i =>
      simp only [runTask, bind_eq_ok, pure_eq_ok, Except.ok.injEq] at hok
      obtain ⟨-, -, rfl⟩ := hok
      exact .of_eq rfl rfl (fun _ h => h) rfl
  | functor i f =>
      simp only [runTask, bind_eq_ok] at hok
      obtain ⟨-, -, hok⟩ := hok
      split_ifs at hok
      · have hlog : (s.view i).Frames ((s.view i).log (.ran .forceCloseInLoop)) := (Frames.refl _).log (by simp)
        rw [forceCloseInLoopWith] at hok
        split_ifs at hok
        · obtain ⟨c', hframes, hstill⟩ := handleClose_still hok
          exact (put_still (hlog.trans hframes)).trans hstill
        · rw [← Except.ok.inj hok]
          exact put_still hlog
      · rename_i hforce
        simp only [bind_eq_ok, pure_eq_ok, Except.ok.injEq] at hok
        obtain ⟨c, hc, rfl⟩ := hok
        exact put_still (runFunctor_frames hforce hc)

lemma runInLoop_still {t : Task} {l' : LoopId} (hok : s.runInLoop mem l l' t = .ok s') : s.Still s' := by
  rw [runInLoop] at hok
  split_ifs at hok
  · exact runTask_still hok
  · rw [← Except.ok.inj hok]
    exact .of_eq rfl rfl (fun _ h => h) rfl

lemma closeCallback_still (hok : s.closeCallback mem l i = .ok s') : s.Still s' := by
  simp only [closeCallback, bind_eq_ok] at hok
  obtain ⟨-, -, hok⟩ := hok
  exact (put_still ((Frames.refl _).log (by simp))).trans (runInLoop_still hok)

/-- A callback that does not read, or a read that fails. -/
lemma callback_still {o : ReadOutcome} {w : WriteOutcome} {cb : Callback} (hcb : cb = .read → ∃ e, o = .error e)
    (hok : s.callback mem l i o w cb = .ok s') : s.Still s' := by
  cases cb with
  | close =>
      obtain ⟨c', hframes, hstill⟩ := handleClose_still hok
      exact (put_still hframes).trans hstill
  | error =>
      rw [← Except.ok.inj hok]
      exact .refl s
  | read =>
      obtain ⟨e, rfl⟩ := hcb rfl
      rw [← Except.ok.inj hok]
      exact put_still (.refl _)
  | write =>
      simp only [callback, bind_eq_ok, pure_eq_ok, Except.ok.injEq] at hok
      obtain ⟨c, hc, rfl⟩ := hok
      exact put_still (handleWrite_frames hc)

/-! ## What a step has to do with the input -/

/-- What the kernel delivers to the connection `i`. -/
def delivered (s : System) (i : ℕ) : Action → List UInt8
  | .next l _ (.bytes data) _ => if (s.loops l).todo.head? = some (.callback i .read) then data else []
  | _ => []

/-- What the user takes out of the input buffer of `i`. -/
def taken (s : System) (i : ℕ) : Action → List UInt8
  | .retrieveInput j len => if j = i then (s.conn i).inputBuffer.toList.take len else []
  | _ => []

@[simp] lemma taken_next (s : System) (i : ℕ) (l : LoopId) (accepted : Option ℤ) (o : ReadOutcome) (w : WriteOutcome) :
    s.taken i (.next l accepted o w) = [] := rfl

/-- **What a step has to do with the input**: nothing; or `handleRead` of a connection has read `data`; or the user
has taken bytes; or a connection has been accepted. -/
inductive Feeds (mem : Memory) (s : System) : Action → System → Prop
  | still {a : Action} {s' : System} (h : s.Still s') (hdelivered : ∀ i, s.delivered i a = [])
      (htaken : ∀ i, s.taken i a = []) : Feeds mem s a s'
  | reads {l accepted data writeOutcome n buffer} {i : ℕ} {c : TcpConnection ChannelId} {s' : System}
      (hhead : (s.loops l).todo.head? = some (.callback i .read)) (halive : s.alive i = true)
      (hread : (s.conn i).inputBuffer.readFd mem (.bytes data) = .ok (n, buffer)) (hbuffer : c.inputBuffer = buffer)
      (hmessages : c.messages = (s.view i).messages + if data = [] then 0 else 1) (h : (s.put i c).Still s') :
      Feeds mem s (.next l accepted (.bytes data) writeOutcome) s'
  | takes {len buffer} {i : ℕ} (halive : s.alive i = true)
      (htake : (s.conn i).inputBuffer.retrieve len = .ok buffer) :
      Feeds mem s (.retrieveInput i len) (s.put i { s.view i with inputBuffer := buffer })
  | accepts {a : Action} {s₁ s' : System} {t ioLoop : LoopId}
      (hnew : ∀ i, s₁.alive i = true → s.alive i = true ∨ i = s.accepted)
      (haccepted : s₁.accepted = s.accepted + 1)
      (hnaming : (s₁.ipPort, s₁.name, s₁.nextConnID) = (s.ipPort, s.name, s.nextConnID + 1))
      (hname : (s₁.conn s.accepted).name = s.connName) (hconn : ∀ i ≠ s.accepted, s₁.conn i = s.conn i)
      (hbuffer : Buffer.create mem Buffer.kInitialSize = .ok (s₁.conn s.accepted).inputBuffer)
      (houtput : Buffer.create mem Buffer.kInitialSize = .ok (s₁.conn s.accepted).outputBuffer)
      (htrace : (s₁.conn s.accepted).trace = [])
      (hok : s₁.runInLoop mem t ioLoop (.connectEstablished s.accepted) = .ok s') (h : s₁.Still s')
      (hdelivered : ∀ i, s.delivered i a = []) (htaken : ∀ i, s.taken i a = []) : Feeds mem s a s'

/-- `handleRead` that was given bytes, or the end of the stream. -/
lemma callback_feeds {data : List UInt8} {accepted : Option ℤ} {w : WriteOutcome} {rest : List Item}
    (htodo : (s.loops l).todo = .callback i .read :: rest) (halive : s.alive i = true)
    (hok : (s.setLoop l { s.loops l with todo := rest }).callback mem l i (.bytes data) w .read = .ok s') :
    Feeds mem s (.next l accepted (.bytes data) w) s' := by
  have hview : ((s.setLoop l { s.loops l with todo := rest }).view i).messages = (s.view i).messages := rfl
  have hput : ∀ c, (s.put i c).Still ((s.setLoop l { s.loops l with todo := rest }).put i c) := fun c =>
    .of_eq rfl rfl (fun _ h => h) rfl
  simp only [callback, handleReadWith, bind_eq_ok, Prod.exists] at hok
  obtain ⟨n, buffer, hread, hok⟩ := hok
  obtain rfl := Buffer.readFd_length hread
  dsimp only at hok
  have hhead : (s.loops l).todo.head? = some (.callback i .read) := by rw [htodo, List.head?_cons]
  split_ifs at hok with hpos
  · obtain rfl := Except.ok.inj hok
    refine .reads hhead halive hread rfl ?_ (hput _)
    rw [if_neg (List.ne_nil_of_length_pos hpos), ← hview, messages, TcpConnection.log, List.count_append]
    rfl
  · obtain ⟨c', hframes, hstill⟩ := handleClose_still hok
    refine .reads hhead halive hread hframes.inputBuffer_eq ?_ ((hput c').trans hstill)
    rw [if_pos (List.eq_nil_of_length_eq_zero (by omega)), hframes.messages_eq]
    rfl

/-- `Acceptor::handleRead` with a descriptor. -/
lemma newConnection_feeds {fd : ℤ} {loop : Loop} (hok : (s.setLoop l loop).newConnection mem l fd = .ok s')
    (hdelivered : ∀ i, s.delivered i a = []) (htaken : ∀ i, s.taken i a = []) : Feeds mem s a s' := by
  simp only [newConnection, bind_eq_ok, Prod.exists] at hok
  obtain ⟨ioLoop, pool, -, inputBuffer, hinput, outputBuffer, houtput, hok⟩ := hok
  have hstill := runInLoop_still hok
  generalize hs₁ : System.construct { s.setLoop l loop with threadPool := pool } ioLoop fd inputBuffer outputBuffer
    = s₁ at hok hstill
  have hself : (s₁.conn s.accepted).inputBuffer = inputBuffer ∧ (s₁.conn s.accepted).outputBuffer = outputBuffer ∧
      (s₁.conn s.accepted).trace = [] ∧ (s₁.conn s.accepted).name = s.connName := by
    rw [← hs₁]
    simp [construct, System.setLoop, connName]
  obtain ⟨hinput', houtput', htrace, hname⟩ := hself
  refine .accepts ?_ ?_ ?_ hname ?_ (by rw [hinput', hinput]) (by rw [houtput', houtput]) htrace hok hstill
    hdelivered htaken
  · rw [← hs₁]
    intro i hi
    by_cases heq : i = s.accepted
    · exact Or.inr heq
    · exact Or.inl (by rwa [← Function.update_of_ne heq true s.alive])
  · rw [← hs₁]
    rfl
  · rw [← hs₁]
    rfl
  · rw [← hs₁]
    exact fun i hi => Function.update_of_ne hi ..

/-- The next call of a loop thread. -/
lemma next_feeds {accepted : Option ℤ} {readOutcome : ReadOutcome} {writeOutcome : WriteOutcome} {item : Item}
    {rest : List Item} (htodo : (s.loops l).todo = item :: rest)
    (hok : (s.setLoop l { s.loops l with todo := rest }).call mem l accepted readOutcome writeOutcome item = .ok s') :
    Feeds mem s (.next l accepted readOutcome writeOutcome) s' := by
  have hloop : s.Still (s.setLoop l { s.loops l with todo := rest }) := .of_eq rfl rfl (fun _ h => h) rfl
  -- nothing but a read delivers
  have hdelivered : (∀ i, item ≠ .callback i .read) →
      ∀ i, s.delivered i (.next l accepted readOutcome writeOutcome) = [] := by
    intro hitem i
    cases readOutcome with
    | bytes data => rw [delivered, htodo, List.head?_cons, if_neg (by simpa using hitem i)]
    | error e => rfl
  cases item with
  | channel ch =>
      simp only [System.call, bind_eq_ok, pure_eq_ok, Except.ok.injEq] at hok
      obtain ⟨-, -, rfl⟩ := hok
      exact .still (.of_eq rfl rfl (fun _ h => h) rfl) (hdelivered (by simp)) fun _ => rfl
  | callback i cb =>
      simp only [System.call, bind_eq_ok] at hok
      obtain ⟨_, halive, hok⟩ := hok
      have halive' : s.alive i = true := deref_eq_ok.mp halive
      by_cases hread : ∃ data, cb = .read ∧ readOutcome = .bytes data
      · obtain ⟨data, rfl, rfl⟩ := hread
        exact callback_feeds htodo halive' hok
      · refine .still (hloop.trans (callback_still ?_ hok)) ?_ fun _ => rfl
        · rintro rfl
          cases readOutcome with
          | bytes data => exact absurd ⟨data, rfl, rfl⟩ hread
          | error e => exact ⟨e, rfl⟩
        · intro j
          cases readOutcome with
          | error e => rfl
          | bytes data =>
              refine hdelivered (fun i' heq => hread ⟨data, ?_, rfl⟩) j
              rw [Item.callback.injEq] at heq
              exact heq.2
  | accept =>
      cases accepted with
      | none =>
          rw [← Except.ok.inj hok]
          exact .still hloop (hdelivered (by simp)) fun _ => rfl
      | some fd =>
          rw [System.call, acceptorHandleRead, guard_eq_ok] at hok
          exact newConnection_feeds hok.2 (hdelivered (by simp)) fun _ => rfl
  | closeCallback i =>
      exact .still (hloop.trans (closeCallback_still hok)) (hdelivered (by simp)) fun _ => rfl

/-- **Every step.** -/
lemma step_feeds (hok : s.step mem a = .ok s') : Feeds mem s a s' := by
  have hloop : ∀ l loop, s.Still (s.setLoop l loop) := fun l loop => .of_eq rfl rfl (fun _ h => h) rfl
  cases a with
  | poll l report =>
      simp only [System.step, guard_eq_ok, bind_eq_ok, pure_eq_ok, Except.ok.injEq, Prod.exists] at hok
      obtain ⟨-, -, -, -, -, r, active, -, rfl⟩ := hok
      exact .still (hloop l _) (fun _ => rfl) fun _ => rfl
  | next l accepted readOutcome writeOutcome =>
      simp only [System.step] at hok
      split at hok
      · simp at hok
      · rename_i item rest htodo
        exact next_feeds htodo hok
  | takePending l =>
      simp only [System.step, guard_eq_ok, Except.ok.injEq] at hok
      rw [← hok.2]
      exact .still (hloop l _) (fun _ => rfl) fun _ => rfl
  | nextFunctor l outcome =>
      simp only [System.step, guard_eq_ok] at hok
      obtain ⟨-, hok⟩ := hok
      split at hok
      · simp at hok
      · exact .still ((hloop l _).trans (runTask_still hok)) (fun _ => rfl) fun _ => rfl
  | endRound l =>
      simp only [System.step, guard_eq_ok, Except.ok.injEq] at hok
      rw [← hok.2]
      exact .still (hloop l _) (fun _ => rfl) fun _ => rfl
  | call i m outcome =>
      simp only [System.step, guard_eq_ok, bind_eq_ok, pure_eq_ok, Except.ok.injEq] at hok
      obtain ⟨-, c, hc, rfl⟩ := hok
      exact .still (put_still (call_frames hc)) (fun _ => rfl) fun _ => rfl
  | test i n m =>
      simp only [System.step, guard_eq_ok] at hok
      obtain ⟨-, hok⟩ := hok
      split_ifs at hok
      · rw [← Except.ok.inj hok]
        exact .still (.of_eq rfl rfl (fun _ h => h) rfl) (fun _ => rfl) fun _ => rfl
      · rw [← Except.ok.inj hok]
        exact .still (.of_eq rfl rfl (fun _ h => h) rfl) (fun _ => rfl) fun _ => rfl
  | store u =>
      simp only [System.step, guard_eq_ok, bind_eq_ok, pure_eq_ok, Except.ok.injEq] at hok
      obtain ⟨-, -, -, rfl⟩ := hok
      have hstore : s.Still ((s.leave u).enter { u with stored := true }) := .of_eq rfl rfl (fun _ h => h) rfl
      exact .still (hstore.trans (put_still (sets_frames _ u.function))) (fun _ => rfl) fun _ => rfl
  | queue u =>
      simp only [System.step, guard_eq_ok, bind_eq_ok, pure_eq_ok, Except.ok.injEq] at hok
      obtain ⟨-, -, -, rfl⟩ := hok
      have hleave : s.Still (s.leave u) := .of_eq rfl rfl (fun _ h => h) rfl
      exact .still (hleave.trans (put_still (posts_frames _ u.thread u.function))) (fun _ => rfl) fun _ => rfl
  | retrieveInput i len =>
      simp only [System.step, guard_eq_ok, bind_eq_ok, pure_eq_ok, Except.ok.injEq] at hok
      obtain ⟨⟨halive, -⟩, buffer, htake, rfl⟩ := hok
      exact .takes halive htake
  | setHighWaterMarkCallback i highWaterMark =>
      simp only [System.step, guard_eq_ok, Except.ok.injEq] at hok
      rw [← hok.2]
      exact .still (put_still ((Frames.refl _).of_eq rfl rfl id rfl rfl rfl rfl)) (fun _ => rfl) fun _ => rfl
  | keep i =>
      simp only [System.step, guard_eq_ok, Except.ok.injEq] at hok
      rw [← hok.2]
      exact .still (.of_eq rfl rfl (fun _ h => h) rfl) (fun _ => rfl) fun _ => rfl
  | drop i =>
      rw [← Except.ok.inj hok]
      exact .still (.of_eq rfl rfl (fun _ h => h) rfl) (fun _ => rfl) fun _ => rfl
  | destroy i =>
      simp only [System.step, guard_eq_ok, Except.ok.injEq] at hok
      rw [← hok.2]
      refine .still (.of_eq rfl rfl (fun j hj => ?_) rfl) (fun _ => rfl) fun _ => rfl
      by_cases hji : j = i
      · rw [hji]
        exact hok.1.1
      · rwa [← Function.update_of_ne hji false s.alive]
  | openFd fd =>
      simp only [System.step, guard_eq_ok, Except.ok.injEq] at hok
      rw [← hok.2]
      exact .still (.of_eq rfl rfl (fun _ h => h) rfl) (fun _ => rfl) fun _ => rfl
  | closeFd fd =>
      simp only [System.step, guard_eq_ok, Except.ok.injEq] at hok
      rw [← hok.2]
      exact .still (.of_eq rfl rfl (fun _ h => h) rfl) (fun _ => rfl) fun _ => rfl

/-! ## Runs -/

/-- The connections that are there have been accepted, and the input buffers are in order. -/
structure Fed (s : System) : Prop where
  born : ∀ i, s.alive i = true → i < s.accepted
  wf : ∀ i < s.accepted, (s.conn i).inputBuffer.Wf

/-- What the user of the connection `i` can read. -/
def unread (s : System) (i : ℕ) : List UInt8 := if i < s.accepted then (s.conn i).inputBuffer.toList else []

/-- How often `m_messageCallback` of the connection `i` was called. -/
def messages (s : System) (i : ℕ) : ℕ := if i < s.accepted then (s.view i).messages else 0

lemma Still.unread_eq (h : s.Still s') (i : ℕ) : s'.unread i = s.unread i := by
  rw [unread, unread, h.accepted_eq, h.inputBuffer_eq]

lemma Still.messages_eq' (h : s.Still s') (i : ℕ) : s'.messages i = s.messages i := by
  rw [messages, messages, h.accepted_eq, h.messages_eq]

lemma Still.fed (h : s.Still s') (hfed : s.Fed) : s'.Fed := by
  refine ⟨fun i hi => ?_, fun i hi => ?_⟩
  · rw [h.accepted_eq]
    exact hfed.born i (h.alive i hi)
  · rw [h.inputBuffer_eq]
    rw [h.accepted_eq] at hi
    exact hfed.wf i hi

/-- A connection gets another input buffer. -/
lemma Fed.put (h : s.Fed) (hbuffer : c.inputBuffer.Wf) : (s.put i c).Fed := by
  refine ⟨h.born, fun j hj => ?_⟩
  by_cases hji : j = i
  · rw [hji]
    simpa [System.put] using hbuffer
  · rw [put_conn_of_ne hji]
    exact h.wf j hj

lemma put_unread (hi : i < s.accepted) (c : TcpConnection ChannelId) (j : ℕ) :
    (s.put i c).unread j = if j = i then c.inputBuffer.toList else s.unread j := by
  split_ifs with hji
  · rw [hji, unread, put_accepted, if_pos hi]
    simp [System.put]
  · rw [unread, unread, put_conn_of_ne hji, put_accepted]

lemma put_messages (hi : i < s.accepted) (c : TcpConnection ChannelId) (j : ℕ) :
    (s.put i c).messages j = if j = i then c.messages else s.messages j := by
  split_ifs with hji
  · rw [hji, messages, put_accepted, if_pos hi]
    simp [TcpConnection.messages, view, System.put]
  · simp only [messages, TcpConnection.messages, view, put_conn_of_ne hji, put_accepted]

lemma fed_start (cfg : Setting) : cfg.start.Fed :=
  ⟨fun i hi => absurd hi (by simp [Setting.start]), fun i hi => absurd hi (Nat.not_lt_zero i)⟩

/-- **A step** puts what is delivered at the back of the buffer, and takes what the user takes from the front. -/
lemma Fed.step (h : s.Fed) (hok : s.step mem a = .ok s') (i : ℕ) :
    s'.Fed ∧ s.unread i ++ s.delivered i a = s.taken i a ++ s'.unread i ∧
      s'.messages i = s.messages i + if s.delivered i a ≠ [] then 1 else 0 := by
  cases step_feeds hok with
  | still hstill hdelivered htaken =>
      refine ⟨hstill.fed h, ?_, ?_⟩
      · rw [hdelivered, htaken, hstill.unread_eq, List.append_nil, List.nil_append]
      · rw [hdelivered, hstill.messages_eq', if_neg (by simp)]
        rfl
  | @reads l accepted data writeOutcome n buffer j c _ hhead halive hread hbuffer hmessages hstill =>
      have hj := h.born j halive
      obtain ⟨hwf, hlist, -⟩ := (h.wf j hj).readFd hread
      have hdelivered : s.delivered i (.next l accepted (.bytes data) writeOutcome) = if i = j then data else [] := by
        rw [delivered, hhead]
        by_cases hij : i = j
        · rw [if_pos (by rw [hij]), if_pos hij]
        · rw [if_neg (by simpa using fun heq => hij heq.symm), if_neg hij]
      refine ⟨hstill.fed (h.put (hbuffer ▸ hwf)), ?_, ?_⟩
      · rw [hstill.unread_eq, put_unread hj, hdelivered, taken_next, List.nil_append]
        split_ifs with hij
        · rw [hij, unread, if_pos hj, hbuffer, hlist]
        · rw [List.append_nil]
      · rw [hstill.messages_eq', put_messages hj, hdelivered]
        by_cases hij : i = j
        · rw [if_pos hij, if_pos hij, hij, messages, if_pos hj, hmessages]
          split_ifs <;> simp_all
        · rw [if_neg hij, if_neg hij, if_neg (by simp)]
          rfl
  | @takes len buffer j halive htake =>
      have hj := h.born j halive
      have hle : len ≤ (s.conn j).inputBuffer.readableBytes := by
        simp only [Buffer.retrieve, bind_eq_ok, assertThat_eq_ok] at htake
        exact htake.choose_spec.1
      obtain ⟨hwf, hlist⟩ := (h.wf j hj).retrieve hle htake
      have hdelivered : s.delivered i (.retrieveInput j len) = [] := rfl
      refine ⟨h.put hwf, ?_, ?_⟩
      · rw [put_unread hj, hdelivered, List.append_nil, taken]
        by_cases hij : i = j
        · rw [hij, if_pos rfl, if_pos rfl, unread, if_pos hj, hlist, List.take_append_drop]
        · rw [if_neg hij, if_neg (Ne.symm hij), List.nil_append]
      · rw [put_messages hj, hdelivered, if_neg (not_not_intro rfl), Nat.add_zero]
        split_ifs with hij
        · rw [hij, messages, if_pos hj]
          rfl
        · rfl
  | @accepts _ s₁ _ _ _ hnew haccepted _ _ hconn hbuffer _ htrace _ hstill hdelivered htaken =>
      have hempty := Buffer.represents_of_create (by decide) hbuffer
      have hfed : s₁.Fed := by
        refine ⟨fun j hj => ?_, fun j hj => ?_⟩
        · rw [haccepted]
          rcases hnew j hj with hold | rfl
          · exact (h.born j hold).trans (Nat.lt_succ_self _)
          · exact Nat.lt_succ_self _
        · by_cases heq : j = s.accepted
          · rw [heq]
            exact hempty.wf
          · rw [hconn j heq]
            exact h.wf j (by omega)
      have hsame : s₁.unread i = s.unread i ∧ s₁.messages i = s.messages i := by
        by_cases heq : i = s.accepted
        · rw [unread, unread, messages, messages, heq, if_neg (lt_irrefl _), if_neg (lt_irrefl _), haccepted,
            if_pos (Nat.lt_succ_self _), if_pos (Nat.lt_succ_self _), hempty.toList_eq, TcpConnection.messages,
            show (s₁.view s.accepted).trace = [] from htrace]
          exact ⟨rfl, rfl⟩
        · have hlt : i < s.accepted + 1 ↔ i < s.accepted := by omega
          simp only [unread, messages, TcpConnection.messages, view, haccepted, hlt, hconn i heq, and_self]
      refine ⟨hstill.fed hfed, ?_, ?_⟩
      · rw [hdelivered, htaken, hstill.unread_eq, hsame.1, List.append_nil, List.nil_append]
      · rw [hdelivered, hstill.messages_eq', hsame.2, if_neg (not_not_intro rfl)]
        rfl

/-- **The input of every connection is intact.**  At the end of every run that goes on, of every connection accepted:
the bytes the user has taken, followed by those in the input buffer, are the bytes the kernel has delivered, each
once and in their order; and `m_messageCallback` was called exactly once for each time some were delivered. -/
theorem input_intact (cfg : Setting) (as : List Action) (h : Machine.run (step cfg.mem) cfg.start as = .ok s) :
    ∀ i < s.accepted,
      Machine.collect (delivered · i) (Machine.steps (step cfg.mem) cfg.start as)
        = Machine.collect (taken · i) (Machine.steps (step cfg.mem) cfg.start as) ++ (s.conn i).inputBuffer.toList ∧
      (s.conn i).trace.count .messageCallback
        = (Machine.steps (step cfg.mem) cfg.start as).countP fun p => p.1.delivered i p.2 ≠ [] := by
  intro i hi
  have hfifo := Machine.run_fifo (I := Fed) (unread · i) (delivered · i) (taken · i)
    (fun _ _ _ hfed hok => ⟨(hfed.step hok i).1, (hfed.step hok i).2.1⟩) (fed_start cfg) h
  have hcount := Machine.run_count (I := Fed) (messages · i) (fun s a => decide (s.delivered i a ≠ []))
    (fun _ _ _ hfed hok => ⟨(hfed.step hok i).1, by simpa using (hfed.step hok i).2.2⟩) (fed_start cfg) h
  have hstart : cfg.start.unread i = [] ∧ cfg.start.messages i = 0 :=
    ⟨if_neg (Nat.not_lt_zero i), if_neg (Nat.not_lt_zero i)⟩
  rw [hstart.1, List.nil_append, unread, if_pos hi] at hfifo
  rw [hstart.2, Nat.zero_add, messages, if_pos hi] at hcount
  exact ⟨hfifo, hcount⟩

/-- Five bytes are delivered in two reads, and the user takes two of them in between. -/
def fiveBytes : List Action :=
  [.poll .base [(7, {.epollin})], .next .base none (.error 0) (.wrote 0), .next .base (some 8) (.error 0) (.wrote 0),
    .poll (.io 0) [], .takePending (.io 0), .nextFunctor (.io 0) (.wrote 0), .endRound (.io 0),
    .poll (.io 0) [(8, {.epollin})], .next (.io 0) none (.error 0) (.wrote 0),
    .next (.io 0) none (.bytes [1, 2, 3]) (.wrote 0), .retrieveInput 0 2, .takePending (.io 0), .endRound (.io 0),
    .poll (.io 0) [(8, {.epollin})], .next (.io 0) none (.error 0) (.wrote 0),
    .next (.io 0) none (.bytes [4, 5]) (.wrote 0)]

/-- Of the five bytes the user has taken two, and three are in the buffer. -/
theorem input_intact_fiveBytes :
    ∃ s, Machine.run (step oneThread.mem) oneThread.start fiveBytes = .ok s ∧
      (s.conn 0).inputBuffer.toList = [3, 4, 5] ∧ (s.conn 0).trace.count .messageCallback = 2 ∧
      Machine.collect (delivered · 0) (Machine.steps (step oneThread.mem) oneThread.start fiveBytes)
        = Machine.collect (taken · 0) (Machine.steps (step oneThread.mem) oneThread.start fiveBytes) ++ [3, 4, 5] := by
  have hrun : (Machine.run (step oneThread.mem) oneThread.start fiveBytes).map
      (fun s => (s.accepted, (s.conn 0).inputBuffer.toList, (s.conn 0).trace.count .messageCallback))
        = .ok (1, [3, 4, 5], 2) := by
    decide +kernel
  obtain ⟨s, hs, hobs⟩ := Machine.ok_of_map hrun
  obtain ⟨haccepted, hlist, hcount⟩ : s.accepted = 1 ∧ (s.conn 0).inputBuffer.toList = [3, 4, 5] ∧
      (s.conn 0).trace.count .messageCallback = 2 := by
    simpa using hobs
  refine ⟨s, hs, hlist, hcount, ?_⟩
  rw [← hlist]
  exact (input_intact oneThread fiveBytes hs 0 (by omega)).1

end System

end Seenet
