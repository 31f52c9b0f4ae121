import Seenet.System.Output
import Seenet.System.Rounds

/-!
# The echo server

`test/echoserver.cpp` is a program on top of the library: a server with eight threads whose message callback sends
back what has been received, and takes it out of the buffer.

* `EchoServer.messageCallback`, `EchoServer.step` — the callback, and what the program does in a step: `handleRead`
  calls it, and nobody else has anything to do with the connections.  The steps are those until `main` returns: it
  does so when it has read two numbers, with the thread that loops not joined, and ends the process by that.
* `Echoing` — the invariant: nothing waits to be read or to be sent in the loops, no connection has been told to
  close, and no input buffer has grown beyond what one `readFd` asks for.
* **`echo_refines`** — the program uses the library as it should be used, and nothing aborts but the print of a
  buffer that holds no zero.
* **`echo_intact`** — of every connection, what the peer has been sent and what waits in the output buffer is what was
  received, but for what was lost to an error of `write`.
* **`echo_stalls`** — and once something waits there, the peer is sent nothing any more.
-/

namespace Seenet

open Channel

/-! ## The size of an input buffer -/

namespace Buffer

variable {mem : Memory} {b b' : Buffer} {data : List UInt8}

lemma resize_length_le {l l' : List UInt8} {n : ℕ} (hok : resize mem l n = .ok l') : l'.length ≤ max l.length n := by
  rw [resize] at hok
  split_ifs at hok with hle
  · rw [← Except.ok.inj hok, List.length_take]
    omega
  · rw [← Except.ok.inj hok, List.length_append, List.length_replicate]
    omega

lemma copyIn_length {l l' d : List UInt8} {p : ℕ} (hok : copyIn l p d = .ok l') : l'.length = l.length := by
  rw [copyIn] at hok
  split_ifs at hok with hfit
  rw [← Except.ok.inj hok]
  exact Region.length_overwrite hfit

/-- The vector grows to what is asked for, and no further. -/
lemma makeSpace_length_le {len : ℕ} (hok : b.makeSpace mem len = .ok b') :
    b'.buff.length ≤ max b.buff.length (b.wirterIndex + len) := by
  rw [makeSpace] at hok
  split_ifs at hok
  · simp only [bind_eq_ok, pure_eq_ok, Except.ok.injEq] at hok
    obtain ⟨buff, hresize, rfl⟩ := hok
    have hle := resize_length_le hresize
    have hsum : sizeAdd b.wirterIndex len ≤ b.wirterIndex + len := Nat.mod_le ..
    dsimp only
    omega
  · simp only [bind_eq_ok, pure_eq_ok, Except.ok.injEq] at hok
    obtain ⟨-, -, data, -, buff, hcopy, -, -, rfl⟩ := hok
    rw [copyIn_length hcopy]
    exact le_max_left ..

lemma append_length_le (hok : b.append mem data = .ok b') :
    b'.buff.length ≤ max b.buff.length (b.wirterIndex + data.length) := by
  rw [append, bind_eq_ok] at hok
  obtain ⟨b₁, hensure, hwrite⟩ := hok
  simp only [writeDirect, hasWritten, bind_eq_ok, pure_eq_ok, Except.ok.injEq] at hwrite
  obtain ⟨buff, hcopy, -, -, rfl⟩ := hwrite
  dsimp only
  rw [copyIn_length hcopy]
  rw [ensureWritableBytes] at hensure
  split_ifs at hensure
  · simp only [bind_eq_ok, pure_eq_ok, Except.ok.injEq] at hensure
    obtain ⟨b₂, hspace, -, -, rfl⟩ := hensure
    exact makeSpace_length_le hspace
  · simp only [pure_eq_ok, bind_ok, bind_eq_ok, Except.ok.injEq] at hensure
    obtain ⟨-, -, rfl⟩ := hensure
    exact le_max_left ..

/-- The most an input buffer takes that is emptied after every `readFd`. -/
def peakSize : ℕ := kCheapPrepend + 2 * extraBufSize - 1

/-- **An empty buffer** is given a larger vector by `readFd` only while it is small. -/
lemma Wf.readFd_length_le (h : b.Wf) (hwirter : b.wirterIndex = kCheapPrepend) (hsize : b.buff.length ≤ peakSize)
    {n : Except Errno ℕ} (hok : b.readFd mem (.bytes data) = .ok (n, b')) : b'.buff.length ≤ peakSize := by
  have hwr := h.wirtableBytes_eq
  have hwirter_le := h.wirter_le
  rcases Nat.lt_or_ge b.wirtableBytes data.length with hgt | hle
  · have hoffered : data.length ≤ b.offered := by
      by_contra hmany
      rw [Nat.not_le, offered] at hmany
      simp [Buffer.readFd, hmany] at hok
    obtain ⟨first, -, hfull, hlength, hread⟩ := readFd_of_gt mem h.represents hgt hoffered
    rw [hread, bind_eq_ok] at hok
    obtain ⟨b₁, happend, hok⟩ := hok
    obtain ⟨-, rfl⟩ := Prod.mk.inj (Except.ok.inj hok)
    have hbound := append_length_le happend
    rw [hfull, hlength, List.length_drop] at hbound
    -- the array on the stack is offered only to a buffer smaller than it
    rw [offered] at hoffered
    by_cases hsmall : b.wirtableBytes < extraBufSize
    · rw [if_pos hsmall] at hoffered
      simp only [peakSize, kCheapPrepend, extraBufSize] at hsize hwirter hoffered hsmall ⊢
      omega
    · rw [if_neg hsmall] at hoffered
      omega
  · obtain ⟨-, hfit⟩ := h.writeDirect_eq hle
    have hmany : ¬ (if b.wirtableBytes < extraBufSize then b.wirtableBytes + extraBufSize else b.wirtableBytes)
        < data.length := by
      split_ifs <;> omega
    simp only [Buffer.readFd, hmany, if_false, List.take_of_length_le hle, copyIn, if_pos hfit, bind_ok, if_pos hle,
      pure_eq_ok, Except.ok.injEq, Prod.mk.injEq] at hok
    obtain ⟨-, rfl⟩ := hok
    rw [Region.length_overwrite hfit]
    exact hsize

end Buffer

/-! ## A message sent by the thread of the loop -/

/-- `sendInLoop` gives the message up. -/
def WriteOutcome.isFault : WriteOutcome → Bool
  | .wrote _ => false
  | .error errno => TcpConnection.faultError errno

namespace TcpConnection

variable {ι : Type} {c c' : TcpConnection ι} {mem : Memory} {o : WriteOutcome} {message : List UInt8}

/-- What is written and kept, is the message, or nothing. -/
lemma Sends.carries {t : Thread} {kept : List UInt8} {es : List Effect} (h : c.Sends t message o kept es) :
    wire es ++ (c.output ++ kept) = c.output ++ if c.Idle ∧ o.isFault = true then [] else message := by
  cases h with
  | busy hbusy =>
      rw [if_neg fun hidle => hbusy hidle.1]
      rfl
  | direct hidle hn => simp [wire, hidle.2, WriteOutcome.isFault]
  | failed hidle he => simp [wire, WriteOutcome.isFault, he]
  | fault hidle he => simp [wire, WriteOutcome.isFault, he, hidle]

variable [DecidableEq ι]

/-- **`send` on the thread of the loop** runs `sendInLoop` at once. -/
lemma call_send_loop (h : c.Wf) (hstate : c.state = .kConnected) (hok : c.call mem .loop o (.send message) = .ok c') :
    c'.state = .kConnected ∧ sentMessages c'.trace = sentMessages c.trace ++ [(.loop, message)] ∧
      ranMessages c'.trace = ranMessages c.trace ++ [(.loop, message)] ∧
      wire c'.trace ++ c'.output
        = wire c.trace ++ c.output ++ if c.Idle ∧ o.isFault = true then [] else message := by
  rw [call, if_pos hstate, runInLoop, if_pos rfl] at hok
  have hwf := ((h.does_nothing.log (.send .loop message)).log (.ran (.sendInLoop .loop message))).wf
  rcases sendInLoop_spec hwf hok with ⟨hdisconnected, -⟩ | ⟨-, hstate', -, kept, es, fs, hsends, -, hdoes⟩
  · simp [TcpConnection.log, hstate] at hdisconnected
  · have hsilent : sentMessages es = [] ∧ ranMessages es = [] := by
      cases hsends <;> exact ⟨rfl, rfl⟩
    refine ⟨hstate'.trans hstate, ?_, ?_, ?_⟩
    · rw [hdoes.trace_eq, sentMessages_append, hsilent.1]
      simp [TcpConnection.log, sentMessages]
    · rw [hdoes.trace_eq, ranMessages_append, hsilent.2]
      simp [TcpConnection.log, ranMessages]
    · have hcarries := hsends.carries
      have holdwire : wire (((c.log (.send .loop message)).log (.ran (.sendInLoop .loop message))).trace)
          = wire c.trace := by
        simp [TcpConnection.log, wire]
      rw [hdoes.trace_eq, hdoes.output_eq, wire_append, holdwire, List.append_assoc, hcarries, List.append_assoc]
      rfl

/-! ## Who tells a connection to close -/

/-- The connection has not been told to close. -/
def Unasked (c c' : TcpConnection ι) : Prop := c'.state = .kDisconnecting → c.state = .kDisconnecting

omit [DecidableEq ι] in
lemma Changes.unasked {k : Kind} (h : c.Changes k c') (hk : k ≠ .disconnecting) : c.Unasked c' := by
  cases h with
  | rest hstate | startRead hstate | stopRead hstate | remove hstate => exact fun hasked => hstate ▸ hasked
  | disconnecting => exact absurd rfl hk
  | establish _ hstate | close _ hstate => simp [Unasked, hstate]

lemma runFunctor_unasked (h : c.Wf) {f : Functor} (hforce : f ≠ .forceCloseInLoop)
    (hok : c.runFunctor mem f o = .ok c') : c.Unasked c' := by
  by_cases hdestroyed : f = .connectDestroyed
  · subst hdestroyed
    obtain ⟨-, hstate, -⟩ := connectDestroyed_spec (h.does_nothing.log (.ran .connectDestroyed)).wf hok
    intro hasked
    rw [hstate] at hasked
    split_ifs at hasked
    exact hasked
  · refine (runFunctor_changes h hforce hdestroyed hok).2.unasked fun hk => ?_
    rcases functorKind_cases c f with hkind | ⟨-, hkind⟩
    · simp [hk] at hkind
    · simp [hk] at hkind

end TcpConnection

namespace System

open TcpConnection

variable {cfg : Setting} {mem : Memory} {s s' s'' : System} {l : LoopId} {i j : ℕ} {a : Action}
variable {c : TcpConnection ChannelId}

/-- No connection has been told to close. -/
def Unasked (s s' : System) : Prop := ∀ j, (s'.conn j).state = .kDisconnecting → (s.conn j).state = .kDisconnecting

lemma Unasked.of_eq (h : s'.conn = s.conn) : s.Unasked s' := fun j hasked => by rwa [h] at hasked

lemma Unasked.trans (h : s.Unasked s') (h' : s'.Unasked s'') : s.Unasked s'' := fun j hasked => h j (h' j hasked)

lemma put_unasked (h : (s.view i).Unasked c) : s.Unasked (s.put i c) := by
  intro j hasked
  by_cases hji : j = i
  · subst hji
    exact h (by simpa [System.put] using hasked)
  · rwa [put_conn_of_ne hji] at hasked

lemma handleClose_unasked (hwf : c.Wf) (hok : s.handleClose l i c = .ok s') : s.Unasked s' := by
  rw [handleClose, bind_eq_ok] at hok
  obtain ⟨c', hclose, hs'⟩ := hok
  rw [← Except.ok.inj hs']
  have hstate := (beginClose_spec hwf hclose).2.2.1
  have hput : s.Unasked (s.put i c') := put_unasked fun hasked => by simp [hstate] at hasked
  exact hput.trans (.of_eq rfl)

lemma establish_unasked {o : WriteOutcome} (hok : s.runTask mem l o (.connectEstablished i) = .ok s') :
    s.Unasked s' := by
  simp only [runTask, connectEstablished, onChannel, bind_eq_ok, pure_eq_ok, Except.ok.injEq] at hok
  obtain ⟨-, -, c, ⟨-, -, -, ⟨r, -, rfl⟩, rfl⟩, rfl⟩ := hok
  exact put_unasked fun hasked => by simp [TcpConnection.log, setState] at hasked

lemma runTask_unasked {t : Task} (h : s.Sound cfg [t]) {o : WriteOutcome} (hok : s.runTask mem l o t = .ok s') :
    s.Unasked s' := by
  cases t with
  | connectEstablished i => exact establish_unasked hok
  | removeConnectionInLoop i =>
      simp only [runTask, bind_eq_ok, pure_eq_ok, Except.ok.injEq] at hok
      obtain ⟨-, -, rfl⟩ := hok
      exact .of_eq rfl
  | functor i f =>
      simp only [runTask, bind_eq_ok] at hok
      obtain ⟨_, halive, hok⟩ := hok
      have hwf := h.view_wf (deref_eq_ok.mp halive)
      split_ifs at hok with hforce
      · rw [forceCloseInLoopWith] at hok
        split_ifs at hok
        · exact handleClose_unasked (hwf.does_nothing.log (.ran .forceCloseInLoop)).wf hok
        · rw [← Except.ok.inj hok]
          exact put_unasked id
      · simp only [bind_eq_ok, pure_eq_ok, Except.ok.injEq] at hok
        obtain ⟨c, hc, rfl⟩ := hok
        exact put_unasked (runFunctor_unasked hwf hforce hc)

lemma callback_unasked (hwf : (s.view i).Wf) {readOutcome : ReadOutcome} {writeOutcome : WriteOutcome} {cb : Callback}
    (hok : s.callback mem l i readOutcome writeOutcome cb = .ok s') : s.Unasked s' := by
  cases cb with
  | close => exact handleClose_unasked hwf hok
  | error =>
      rw [← Except.ok.inj hok]
      exact .of_eq rfl
  | read =>
      simp only [callback, handleReadWith, bind_eq_ok, Prod.exists] at hok
      obtain ⟨n, buffer, -, hok⟩ := hok
      have hread : Wf { s.view i with inputBuffer := buffer } := ⟨hwf.coherent, hwf.outputBuffer⟩
      cases n with
      | error e =>
          rw [← Except.ok.inj hok]
          exact put_unasked id
      | ok n =>
          dsimp only at hok
          split_ifs at hok
          · rw [← Except.ok.inj hok]
            exact put_unasked id
          · exact handleClose_unasked hread hok
  | write =>
      simp only [callback, bind_eq_ok, pure_eq_ok, Except.ok.injEq] at hok
      obtain ⟨c, hc, rfl⟩ := hok
      exact put_unasked ((handleWrite_changes hwf hc).2.unasked (by simp))

lemma newConnection_unasked {fd : ℤ} (hok : s.newConnection mem l fd = .ok s') : s.Unasked s' := by
  simp only [newConnection, bind_eq_ok, Prod.exists] at hok
  obtain ⟨ioLoop, pool, -, inputBuffer, -, outputBuffer, -, hok⟩ := hok
  have hnew : s.Unasked (System.construct { s with threadPool := pool } ioLoop fd inputBuffer outputBuffer) := by
    intro j hasked
    by_cases hj : j = s.accepted
    · rw [hj] at hasked
      simp [construct] at hasked
    · have hconn : (System.construct { s with threadPool := pool } ioLoop fd inputBuffer outputBuffer).conn j
          = s.conn j :=
        Function.update_of_ne hj ..
      rwa [hconn] at hasked
  refine hnew.trans ?_
  rw [runInLoop] at hok
  split_ifs at hok
  · exact establish_unasked hok
  · rw [← Except.ok.inj hok]
    exact .of_eq rfl

/-- **A step** in which nobody tells a connection to close. -/
lemma step_unasked (h : s.Good cfg) (hcall : ∀ i m o, a ≠ .call i m o) (hstore : ∀ u, a ≠ .store u)
    (hok : s.step mem a = .ok s') : s.Unasked s' := by
  cases a with
  | call i m o => exact absurd rfl (hcall i m o)
  | test i n m =>
      simp only [System.step, guard_eq_ok] at hok
      obtain ⟨-, hok⟩ := hok
      split_ifs at hok
      · rw [← Except.ok.inj hok]
        exact .of_eq rfl
      · rw [← Except.ok.inj hok]
        exact .of_eq rfl
  | store u => exact absurd rfl (hstore u)
  | queue u =>
      simp only [System.step, guard_eq_ok, bind_eq_ok, pure_eq_ok, Except.ok.injEq] at hok
      obtain ⟨-, -, -, rfl⟩ := hok
      have hleave : s.Unasked (s.leave u) := .of_eq rfl
      exact hleave.trans (put_unasked fun hasked => by rwa [posts_state] at hasked)
  | next l accepted readOutcome writeOutcome =>
      simp only [System.step] at hok
      split at hok
      · simp at hok
      · rename_i item rest htodo
        have hmem : item ∈ (s.loops l).todo := by simp [htodo]
        have hs₁ : (s.setLoop l { s.loops l with todo := rest }).Sound cfg [] :=
          h.sound.setTodo (h.sound.agenda.pop htodo)
        have hpop : s.Unasked (s.setLoop l { s.loops l with todo := rest }) := .of_eq rfl
        refine hpop.trans ?_
        cases item with
        | channel ch =>
            simp only [System.call, bind_eq_ok, pure_eq_ok, Except.ok.injEq] at hok
            obtain ⟨-, -, rfl⟩ := hok
            exact .of_eq rfl
        | callback i cb =>
            simp only [System.call, bind_eq_ok] at hok
            obtain ⟨-, -, hok⟩ := hok
            exact callback_unasked (hs₁.view_wf (h.sound.agenda.active l _ hmem i rfl).1) hok
        | accept =>
            cases accepted with
            | none =>
                rw [← Except.ok.inj hok]
                exact .of_eq rfl
            | some fd =>
                rw [System.call, acceptorHandleRead, guard_eq_ok] at hok
                exact newConnection_unasked hok.2
        | closeCallback i =>
            have hl : ((s.setLoop l { s.loops l with todo := rest }).conn i).loop = l :=
              (h.sound.agenda.closing l i hmem).2.1
            have hstates := (closeCallback_ok hl hok).1
            exact fun j hasked => (hstates j).2.2 ▸ hasked
  | nextFunctor l outcome =>
      simp only [System.step, guard_eq_ok] at hok
      obtain ⟨⟨hphase, htodo⟩, hok⟩ := hok
      split at hok
      · simp at hok
      · rename_i t rest hbatch
        have htaken : s.Unasked (s.setLoop l { s.loops l with
            batch := rest, called := (s.loops l).called ++ [t] }) := .of_eq rfl
        exact htaken.trans (runTask_unasked (h.sound.startFunctor htodo hphase hbatch) hok)
  | poll l report =>
      simp only [System.step, guard_eq_ok, bind_eq_ok, pure_eq_ok, Except.ok.injEq, Prod.exists] at hok
      obtain ⟨-, -, -, -, -, r, active, -, rfl⟩ := hok
      exact .of_eq rfl
  | retrieveInput i len =>
      simp only [System.step, guard_eq_ok, bind_eq_ok, pure_eq_ok, Except.ok.injEq] at hok
      obtain ⟨-, buffer, -, rfl⟩ := hok
      exact put_unasked id
  | setHighWaterMarkCallback i highWaterMark =>
      simp only [System.step, guard_eq_ok, Except.ok.injEq] at hok
      rw [← hok.2]
      exact put_unasked id
  | drop i =>
      rw [← Except.ok.inj hok]
      exact .of_eq rfl
  | takePending _ | endRound _ | keep _ | destroy _ | openFd _ | closeFd _ =>
      simp only [System.step, guard_eq_ok, Except.ok.injEq] at hok
      rw [← hok.2]
      exact .of_eq rfl

end System

/-! ## The program -/

namespace EchoServer

open Seenet.System TcpConnection

variable {cfg : Setting} {mem : Memory} {s s' s'' : System} {i j : ℕ}

/-- The server that `main` starts. -/
def svr (cfg : Setting) : Setting :=
  { cfg with
    ipPort := "0.0.0.0:8866", name := "echoServer", numThreads := 8, writeCompleteCallback := true
    ipPort_le := by decide }

/-- What `conn->send(buf->peek(), buf->readableBytes())` sends: the size goes through an `int`. -/
def message (buf : Buffer) : Res (List UInt8) :=
  let len := ((BitVec.ofNat 32 buf.readableBytes).toInt % 2 ^ 64).toNat
  Buffer.copyOut buf.buff buf.peek (buf.peek + len)

/-- The vector has a zero where a message is printed from, or behind. -/
def Terminated (buf : Buffer) : Prop := 0 ∈ buf.buff.drop buf.peek

instance (buf : Buffer) : Decidable (Terminated buf) := inferInstanceAs (Decidable (_ ∈ _))

/-- `std::cout << buf->peek()`: without a zero in the vector the memory behind it is read as well, until there is one
(`zeroBehind`) or the process is ended. -/
def print (buf : Buffer) (zeroBehind : Bool) : Res Unit :=
  if Terminated buf ∨ zeroBehind = true then .ok () else .error .outOfBounds

/-- The callback of `setMessageCallback`. -/
def messageCallback (mem : Memory) (s : System) (i : ℕ) (outcome : WriteOutcome) (zeroBehind : Bool) : Res System :=
  if 0 < (s.conn i).inputBuffer.readableBytes then do
    print (s.conn i).inputBuffer zeroBehind
    let data ← message (s.conn i).inputBuffer
    let s ← s.step mem (.call i (.send data) outcome)
    s.step mem (.retrieveInput i (s.conn i).inputBuffer.readableBytes)
  else .ok s

/-- A step of the library, with what the callback meets if it is called. -/
structure Action where
  library : System.Action
  /-- how the kernel takes what is sent -/
  outcome : WriteOutcome
  zeroBehind : Bool

/-- What only the program does. -/
def OfProgram : System.Action → Bool
  | .call _ _ _ | .test _ _ _ | .store _ | .queue _ | .retrieveInput _ _ | .setHighWaterMarkCallback _ _ | .keep _
  | .drop _ => true
  | _ => false

/-- The connection whose `m_messageCallback` is called in the step. -/
def called (s : System) : System.Action → Option ℕ
  | .next l _ (.bytes data) _ =>
      match (s.loops l).todo.head? with
      | some (.callback i .read) => if 0 < data.length then some i else none
      | _ => none
  | _ => none

/-- A step of the library, with the callback.  The program does nothing else with the connections. -/
def step (mem : Memory) (s : System) (a : Action) : Res System :=
  if OfProgram a.library then .error .disabled
  else do
    let s' ← s.step mem a.library
    match called s a.library with
    | some i => messageCallback mem s' i a.outcome a.zeroBehind
    | none => return s'

lemma called_eq_some_iff {a : System.Action} : called s a = some i ↔ s.delivered i a ≠ [] := by
  cases a with
  | next l accepted readOutcome writeOutcome =>
      cases readOutcome with
      | error e => simp [called, delivered]
      | bytes data =>
          rw [called, delivered]
          cases hhead : (s.loops l).todo.head? with
          | none => simp
          | some item =>
              cases item with
              | callback j cb =>
                  cases cb with
                  | read =>
                      simp only [List.length_pos_iff, Option.ite_none_right_eq_some, Option.some.injEq,
                        Item.callback.injEq, and_true, ne_eq, ite_eq_right_iff, Classical.not_imp]
                      exact and_comm
                  | _ => simp
              | _ => simp
  | _ => simp [called, delivered]

/-- What has been written to the peer, and what waits to be. -/
def carried (s : System) (i : ℕ) : List UInt8 :=
  if i < s.accepted then wire (s.conn i).trace ++ (s.conn i).outputBuffer.toList else []

/-- What is sent back in a step: what is delivered, unless nothing waits to be written and the write fails. -/
def echoed (s : System) (i : ℕ) (a : Action) : List UInt8 :=
  if (s.conn i).outputBuffer.toList = [] ∧ a.outcome.isFault = true then [] else s.delivered i a.library

/-! ## The invariant -/

/-- The library is in order, nobody has told a connection to close, no message waits in a loop, and of each connection
`unread` waits to be read. -/
structure Echoing (cfg : Setting) (s : System) (unread : ℕ → List UInt8) : Prop where
  good : s.Good cfg
  unasked : ∀ i, (s.conn i).state ≠ .kDisconnecting
  current : ∀ i < s.accepted, ranMessages (s.conn i).trace = sentMessages (s.conn i).trace
  input : ∀ i < s.accepted, (s.conn i).inputBuffer.toList = unread i
  size : ∀ i < s.accepted, (s.conn i).inputBuffer.buff.length ≤ Buffer.peakSize
  empty : ∀ i < s.accepted, unread i = [] → (s.conn i).inputBuffer.wirterIndex = Buffer.kCheapPrepend

lemma echoing_start (cfg : Setting) : Echoing cfg cfg.start fun _ => [] := by
  have hnone : ∀ {i}, ¬ i < cfg.start.accepted := Nat.not_lt_zero _
  exact ⟨good_start cfg, fun i => by simp [System.Setting.start], fun i hi => absurd hi hnone,
    fun i hi => absurd hi hnone, fun i hi => absurd hi hnone, fun i hi => absurd hi hnone⟩

/-- No `sendInLoop` waits in a loop. -/
lemma Echoing.not_sends {unread : ℕ → List UInt8} (h : Echoing cfg s unread) {a : System.Action}
    (ha : OfProgram a = false) (i : ℕ) : ¬ s.Sends i a := by
  cases a with
  | nextFunctor l outcome =>
      rintro ⟨t, data, hhead⟩
      have hmem : Task.functor i (.sendInLoop t data) ∈ (s.loops l).batch := List.mem_of_mem_head? hhead
      have htask : Task.functor i (.sendInLoop t data) ∈ (s.loops l).tasks := by simp [Loop.tasks, hmem]
      obtain ⟨halive, hloop, -⟩ := h.good.sound.accounted.placed l _ htask
      have horder := (h.good.sound.intact i halive).order t
      have hcurrent := h.current i (h.good.sound.accounted.born i halive)
      rw [inHand_nil, List.nil_append, show (s.view i).trace = (s.conn i).trace from rfl, hcurrent,
        List.append_right_eq_self, ofThread, List.filter_eq_nil_iff] at horder
      refine horder (t, data) (List.mem_filterMap.mpr ⟨.sendInLoop t data, ?_, rfl⟩) (decide_eq_true rfl)
      have hbatch : (s.loopOf i).batch = (s.loops l).batch := congrArg (fun l => (s.loops l).batch) hloop
      refine List.mem_append_left _ (List.mem_filterMap.mpr ⟨_, hbatch ▸ hmem, ?_⟩)
      exact if_pos rfl
  | call i m o => simp [OfProgram] at ha
  | queue u => simp [OfProgram] at ha
  | _ => exact id

/-- Only an open connection is delivered anything, and it stays as it is. -/
lemma delivered_open {a : System.Action} (h : s.Good cfg) (hdelivered : s.delivered i a ≠ [])
    (hok : s.step mem a = .ok s') :
    (s.view i).IsOpen ∧ (s'.conn i).state = (s.conn i).state ∧ s'.alive i = true ∧ i < s.accepted := by
  cases a with
  | next l accepted readOutcome writeOutcome =>
      cases readOutcome with
      | error e => exact absurd rfl hdelivered
      | bytes data =>
          rw [delivered] at hdelivered
          split_ifs at hdelivered with hhead
          · obtain ⟨rest, htodo⟩ : ∃ rest, (s.loops l).todo = .callback i .read :: rest :=
              List.head?_eq_some_iff.mp hhead
            have hmem : Item.callback i .read ∈ (s.loops l).todo := List.mem_of_mem_head? hhead
            have halive := (h.sound.agenda.active l _ hmem i rfl).1
            have hopen := h.tidy.isOpen l i (List.countP_pos_iff.mpr ⟨_, hmem, decide_eq_true rfl⟩)
            simp only [System.step, htodo, System.call, callback, handleReadWith, bind_eq_ok, Prod.exists] at hok
            obtain ⟨-, -, n, buffer, hread, hok⟩ := hok
            obtain rfl := Buffer.readFd_length hread
            dsimp only at hok
            rw [if_pos (List.length_pos_iff.mpr hdelivered)] at hok
            rw [← Except.ok.inj hok]
            refine ⟨hopen, ?_, halive, h.sound.accounted.born i halive⟩
            simp [System.put, TcpConnection.log, view, System.setLoop]
          · exact absurd rfl hdelivered
  | _ => exact absurd rfl hdelivered

/-- The end of the stream leaves the buffer alone. -/
lemma readFd_nil {b b' : Buffer} {n : Except Errno ℕ} (h : b.Wf) (hok : b.readFd mem (.bytes []) = .ok (n, b')) :
    b'.wirterIndex = b.wirterIndex := by
  have hw := h.wirter_le
  have hs := h.length_lt
  have hsum : sizeAdd b.wirterIndex 0 = b.wirterIndex := sizeAdd_eq (by omega)
  simp only [Buffer.readFd, List.length_nil, Nat.not_lt_zero, if_false, bind_eq_ok, Nat.zero_le, if_true, hsum,
    pure_eq_ok, Except.ok.injEq, Prod.mk.injEq] at hok
  obtain ⟨buff, -, -, rfl⟩ := hok
  rfl

/-- A new buffer is empty. -/
lemma create_empty {b : Buffer} (hok : Buffer.create mem Buffer.kInitialSize = .ok b) :
    b.toList = [] ∧ b.buff.length ≤ Buffer.peakSize ∧ b.wirterIndex = Buffer.kCheapPrepend := by
  have hempty := (Buffer.represents_of_create (by decide) hok).toList_eq
  simp only [Buffer.create, bind_eq_ok, pure_eq_ok, Except.ok.injEq] at hok
  obtain ⟨buff, hresize, -, -, -, -, -, -, rfl⟩ := hok
  refine ⟨hempty, (Buffer.resize_length_le hresize).trans ?_, rfl⟩
  decide

/-- No thread sets the state of a connection. -/
lemma timely_of_library {a : System.Action} (ha : OfProgram a = false) : s.Timely a := by
  cases a with
  | store u => simp [OfProgram] at ha
  | _ => trivial

/-- **A step of the library** keeps the invariant, but for what is delivered, and nothing is written. -/
lemma Echoing.library {a : System.Action} (h : Echoing cfg s fun _ => [])
    (hproper : s.Proper a) (ha : OfProgram a = false) (hok : s.step mem a = .ok s') :
    Echoing cfg s' (s.delivered · a) ∧ ∀ i, carried s' i = carried s i := by
  have hgood := h.good.step hproper (timely_of_library ha) hok
  have hunasked := step_unasked h.good (by rintro i m o rfl; simp [OfProgram] at ha)
    (by rintro u rfl; simp [OfProgram] at ha) hok
  have hdry : ∀ i < s.accepted, (s.view i).Dry (s'.view i) := fun i hi =>
    step_dry h.good.steady (h.not_sends ha i) hok hi
  -- the connections that were there
  have hold : ∀ i < s.accepted, ranMessages (s'.conn i).trace = sentMessages (s'.conn i).trace ∧
      wire (s'.conn i).trace ++ (s'.conn i).outputBuffer.toList
        = wire (s.conn i).trace ++ (s.conn i).outputBuffer.toList := by
    intro i hi
    obtain ⟨houtput, es, htrace, ⟨hwire, hsent, hran, -⟩, -⟩ := hdry i hi
    have htrace' : (s'.conn i).trace = (s.conn i).trace ++ es := htrace
    have houtput' : (s'.conn i).outputBuffer.toList = (s.conn i).outputBuffer.toList := houtput
    rw [htrace', houtput', ranMessages_append, sentMessages_append, wire_append, hran, hsent, hwire, h.current i hi]
    simp only [List.append_nil, and_self]
  cases step_feeds hok with
  | still hstill hdelivered =>
      have haccepted := hstill.accepted_eq
      refine ⟨⟨hgood, fun i hi => h.unasked i (hunasked i hi), fun i hi => (hold i (haccepted ▸ hi)).1,
        fun i hi => ?_, fun i hi => ?_, fun i hi _ => ?_⟩, fun i => ?_⟩
      · rw [hstill.inputBuffer_eq, hdelivered, h.input i (haccepted ▸ hi)]
      · rw [hstill.inputBuffer_eq]
        exact h.size i (haccepted ▸ hi)
      · rw [hstill.inputBuffer_eq]
        exact h.empty i (haccepted ▸ hi) rfl
      · rw [carried, carried, haccepted]
        split_ifs with hi
        · exact (hold i hi).2
        · rfl
  | @reads l accepted data writeOutcome n buffer k c _ hhead halive hread hbuffer _ hstill =>
      have hk := h.good.fed.born k halive
      have hwf := h.good.fed.wf k hk
      have hbufferSize := hwf.readFd_length_le (h.empty k hk rfl) (h.size k hk) hread
      have hlist := (hwf.readFd hread).2.1
      have haccepted : s'.accepted = s.accepted := hstill.accepted_eq
      have hdelivered : ∀ i, s.delivered i (.next l accepted (.bytes data) writeOutcome)
          = if i = k then data else [] := by
        intro i
        rw [delivered, hhead]
        by_cases hik : i = k
        · rw [if_pos (by rw [hik]), if_pos hik]
        · rw [if_neg (by simpa using fun heq => hik heq.symm), if_neg hik]
      have hself : (s'.conn k).inputBuffer = buffer := by
        rw [hstill.inputBuffer_eq, ← hbuffer]
        simp [System.put]
      have hothers : ∀ i ≠ k, (s'.conn i).inputBuffer = (s.conn i).inputBuffer := by
        intro i hik
        rw [hstill.inputBuffer_eq, put_conn_of_ne hik]
      refine ⟨⟨hgood, fun i hi => h.unasked i (hunasked i hi), fun i hi => (hold i (haccepted ▸ hi)).1,
        fun i hi => ?_, fun i hi => ?_, fun i hi hnone => ?_⟩, fun i => ?_⟩
      · rw [hdelivered]
        by_cases hik : i = k
        · rw [if_pos hik, hik, hself, hlist, h.input k hk, List.nil_append]
        · rw [if_neg hik, hothers i hik, h.input i (haccepted ▸ hi)]
      · by_cases hik : i = k
        · rwa [hik, hself]
        · rw [hothers i hik]
          exact h.size i (haccepted ▸ hi)
      · by_cases hik : i = k
        · rw [hdelivered, if_pos hik] at hnone
          subst hnone
          rw [hik, hself, readFd_nil hwf hread]
          exact h.empty k hk rfl
        · rw [hothers i hik]
          exact h.empty i (haccepted ▸ hi) rfl
      · rw [carried, carried, haccepted]
        split_ifs with hi
        · exact (hold i hi).2
        · rfl
  | takes => simp [OfProgram] at ha
  | @accepts _ s₁ _ _ _ _ haccepted _ _ hconn hbuffer houtput hempty hestablish hstill hdelivered =>
      have haccepted' : s'.accepted = s.accepted + 1 := hstill.accepted_eq.trans haccepted
      have hinput : ∀ i, (s'.conn i).inputBuffer = (s₁.conn i).inputBuffer := hstill.inputBuffer_eq
      -- the new connection
      obtain ⟨houtput', es, htrace, ⟨hwire, hsent, hran, -⟩, -⟩ := establish_dry hestablish s.accepted
      have htrace' : (s'.conn s.accepted).trace = es := by
        have heq : (s'.conn s.accepted).trace = (s₁.conn s.accepted).trace ++ es := htrace
        rw [heq, hempty, List.nil_append]
      have hnew : wire (s'.conn s.accepted).trace ++ (s'.conn s.accepted).outputBuffer.toList = [] := by
        have heq : (s'.conn s.accepted).outputBuffer.toList = (s₁.conn s.accepted).outputBuffer.toList := houtput'
        rw [htrace', hwire, heq, (create_empty houtput).1, List.append_nil]
      have hcases : ∀ {i}, i < s'.accepted → i < s.accepted ∨ i = s.accepted := fun hi => by omega
      have hbuffers : ∀ i < s.accepted, (s₁.conn i).inputBuffer = (s.conn i).inputBuffer := fun i hi => by
        rw [hconn i hi.ne]
      refine ⟨⟨hgood, fun i hi => h.unasked i (hunasked i hi), fun i hi => ?_, fun i hi => ?_, fun i hi => ?_,
        fun i hi _ => ?_⟩, fun i => ?_⟩
      · rcases hcases hi with hlt | rfl
        · exact (hold i hlt).1
        · rw [htrace', hran, hsent]
      · rw [hdelivered, hinput]
        rcases hcases hi with hlt | rfl
        · rw [hbuffers i hlt, h.input i hlt]
        · exact (create_empty hbuffer).1
      · rw [hinput]
        rcases hcases hi with hlt | rfl
        · rw [hbuffers i hlt]
          exact h.size i hlt
        · exact (create_empty hbuffer).2.1
      · rw [hinput]
        rcases hcases hi with hlt | rfl
        · rw [hbuffers i hlt]
          exact h.empty i hlt rfl
        · exact (create_empty hbuffer).2.2
      · rw [carried, carried]
        by_cases hlt : i < s.accepted
        · rw [if_pos (by omega), if_pos hlt]
          exact (hold i hlt).2
        · rw [if_neg hlt]
          split_ifs with hi
          · obtain rfl := (hcases hi).resolve_left hlt
            exact hnew
          · rfl

/-! ## The callback -/

/-- **The whole input buffer** is sent, since it is no larger than an `int` can say. -/
lemma message_eq {b : Buffer} (h : b.Wf) (hsize : b.buff.length ≤ Buffer.peakSize) : message b = .ok b.toList := by
  have hreader := h.reader_le
  have hwirter := h.wirter_le
  have hread := h.readableBytes_eq
  have hsmall : b.readableBytes < 2 ^ 31 := by
    simp only [Buffer.peakSize, Buffer.kCheapPrepend, Buffer.extraBufSize] at hsize
    omega
  have hlen : ((BitVec.ofNat 32 b.readableBytes).toInt % 2 ^ 64).toNat = b.readableBytes :=
    h.toStringView_size_iff.mpr hsmall
  have hend : b.peek + b.readableBytes = b.wirterIndex := by
    rw [Buffer.peek]
    omega
  rw [message, hlen, hend]
  exact if_pos ⟨hreader, hwirter⟩

lemma length_toList_lt {b : Buffer} (h : b.Wf) : b.toList.length < 2 ^ 63 := by
  have hw := h.wirter_le
  have hs := h.length_lt
  have hread := h.readableBytes_eq
  have hlength := h.length_toList
  omega

/-- All that is readable is taken. -/
lemma retrieve_all {b b' : Buffer} (hok : b.retrieve b.readableBytes = .ok b') :
    b'.toList = [] ∧ b'.buff = b.buff ∧ b'.wirterIndex = Buffer.kCheapPrepend := by
  simp only [Buffer.retrieve, lt_irrefl, if_false, bind_eq_ok, pure_eq_ok, Except.ok.injEq] at hok
  obtain ⟨-, -, rfl⟩ := hok
  refine ⟨?_, rfl, rfl⟩
  rw [Buffer.toList]
  exact Region.region_self ..

/-- **The callback** sends what waits to be read, and takes it. -/
lemma Echoing.answer {unread : ℕ → List UInt8} (h : Echoing cfg s unread)
    (hi : i < s.accepted) (hstate : (s.conn i).state = .kConnected) (hunread : unread i ≠ [])
    (hothers : ∀ j ≠ i, unread j = []) {o : WriteOutcome} {zeroBehind : Bool}
    (hok : messageCallback mem s i o zeroBehind = .ok s') :
    Echoing cfg s' (fun _ => []) ∧ ∀ j, carried s' j = carried s j ++
      if (s.conn j).outputBuffer.toList = [] ∧ o.isFault = true then [] else unread j := by
  have hwf := h.good.fed.wf i hi
  have hlist := h.input i hi
  have hlength := hwf.length_toList
  have hsize := h.size i hi
  have hpos : 0 < (s.conn i).inputBuffer.readableBytes := by
    rw [← hlength, hlist]
    exact List.length_pos_iff.mpr hunread
  rw [messageCallback, if_pos hpos, message_eq hwf hsize, bind_ok, bind_eq_ok] at hok
  obtain ⟨-, -, hok⟩ := hok
  obtain ⟨s₁, hcall, hretrieve⟩ := bind_eq_ok.mp hok
  have hplain : s.Proper (.call i (.send (s.conn i).inputBuffer.toList) o) := length_toList_lt hwf
  have hgood₁ := h.good.step hplain trivial hcall
  have hall : s₁.Proper (.retrieveInput i (s₁.conn i).inputBuffer.readableBytes) := le_rfl
  have hgood' := hgood₁.step hall trivial hretrieve
  simp only [System.step, guard_eq_ok, bind_eq_ok, pure_eq_ok, Except.ok.injEq] at hcall hretrieve
  obtain ⟨⟨halive, -⟩, c, hc, hs₁⟩ := hcall
  obtain ⟨-, buffer, htake, hs'⟩ := hretrieve
  obtain ⟨hstate', hsent, hran, hcarried⟩ := call_send_loop (h.good.sound.view_wf halive) hstate hc
  have hidle : (s.view i).Idle ↔ (s.conn i).outputBuffer.toList = [] :=
    and_iff_right (h.good.tidy.stage i halive).isWriting_eq
  have hinput : (s₁.conn i).inputBuffer = (s.conn i).inputBuffer := by
    rw [← hs₁, ← show (s.view i).inputBuffer = (s.conn i).inputBuffer from rfl, ← (call_frames hc).inputBuffer_eq]
    simp [System.put]
  obtain ⟨hnone, hbuff, hwirter⟩ := retrieve_all htake
  have hlength' : buffer.buff.length = (s.conn i).inputBuffer.buff.length := by
    rw [hbuff]
    exact congrArg (fun b : Buffer => b.buff.length) hinput
  -- the connection after the callback, and the others
  have haccepted : s'.accepted = s.accepted := by
    rw [← hs', ← hs₁]
    rfl
  have hself : (s'.conn i).state = c.state ∧ (s'.conn i).inputBuffer = buffer ∧
      (s'.conn i).outputBuffer = c.outputBuffer ∧ (s'.conn i).trace = c.trace := by
    rw [← hs', ← hs₁]
    simp [System.put, view]
  obtain ⟨hstate'', hinput', houtput', htrace'⟩ := hself
  have hconn : ∀ j ≠ i, s'.conn j = s.conn j := by
    intro j hji
    rw [← hs', ← hs₁, put_conn_of_ne hji, put_conn_of_ne hji]
  refine ⟨⟨hgood', fun j => ?_, fun j hj => ?_, fun j hj => ?_, fun j hj => ?_, fun j hj _ => ?_⟩, fun j => ?_⟩
  all_goals by_cases hji : j = i
  · rw [hji, hstate'', hstate']
    simp
  · rw [hconn j hji]
    exact h.unasked j
  · rw [hji, htrace', hran, hsent, show (s.view i).trace = (s.conn i).trace from rfl, h.current i hi]
  · rw [hconn j hji]
    exact h.current j (haccepted ▸ hj)
  · rw [hji, hinput', hnone]
  · rw [hconn j hji, h.input j (haccepted ▸ hj), hothers j hji]
  · rw [hji, hinput', hlength']
    exact hsize
  · rw [hconn j hji]
    exact h.size j (haccepted ▸ hj)
  · rw [hji, hinput', hwirter]
  · rw [hconn j hji]
    exact h.empty j (haccepted ▸ hj) (hothers j hji)
  · have hcarried' : wire c.trace ++ c.outputBuffer.toList = wire (s.conn i).trace ++ (s.conn i).outputBuffer.toList ++
        if (s.view i).Idle ∧ o.isFault = true then [] else (s.conn i).inputBuffer.toList := hcarried
    rw [carried, carried, haccepted, hji, if_pos hi, if_pos hi, htrace', houtput', hcarried', hlist]
    simp only [hidle]
  · rw [carried, carried, haccepted, hconn j hji, hothers j hji, ite_self, List.append_nil]

/-! ## Steps -/

/-- **When the callback is called**, the connection is connected, and what is delivered can be read. -/
lemma Echoing.called {a : System.Action} (h : Echoing cfg s fun _ => []) (hok : s.step mem a = .ok s')
    (hcalled : called s a = some i) :
    s'.alive i = true ∧ (s'.conn i).state = .kConnected ∧ i < s'.accepted ∧ i < s.accepted ∧
      ∀ j ≠ i, s.delivered j a = [] := by
  obtain ⟨hopen, hstate, halive, hi⟩ := delivered_open h.good (called_eq_some_iff.mp hcalled) hok
  refine ⟨halive, ?_, hi.trans_le (step_continues hok).accepted_le, hi, fun j hji => ?_⟩
  · rw [hstate]
    exact hopen.resolve_right (h.unasked i)
  · by_contra hdelivered
    have hsome := called_eq_some_iff.mpr hdelivered
    rw [hcalled, Option.some.injEq] at hsome
    exact hji hsome.symm

/-- **A step of the program** keeps the invariant, and sends back what it is given. -/
lemma Echoing.step {a : Action} (h : Echoing cfg s fun _ => [])
    (hproper : s.Proper a.library) (hok : EchoServer.step mem s a = .ok s') :
    Echoing cfg s' (fun _ => []) ∧ ∀ i, carried s' i = carried s i ++ echoed s i a := by
  rw [EchoServer.step] at hok
  split_ifs at hok with ha
  rw [Bool.not_eq_true] at ha
  rw [bind_eq_ok] at hok
  obtain ⟨s₁, hlibrary, hok⟩ := hok
  obtain ⟨h₁, hcarried⟩ := h.library hproper ha hlibrary
  cases hcalled : EchoServer.called s a.library with
  | none =>
      rw [hcalled, pure_eq_ok, Except.ok.injEq] at hok
      subst hok
      have hdelivered : ∀ i, s.delivered i a.library = [] := by
        intro i
        by_contra hne
        have hsome := called_eq_some_iff.mpr hne
        simp [hcalled] at hsome
      simp only [hdelivered] at h₁
      refine ⟨h₁, fun i => ?_⟩
      rw [hcarried, echoed, hdelivered, ite_self, List.append_nil]
  | some i =>
      rw [hcalled] at hok
      obtain ⟨-, hstate, hi₁, hi, hothers⟩ := h.called hlibrary hcalled
      obtain ⟨h', hanswer⟩ := h₁.answer hi₁ hstate (called_eq_some_iff.mp hcalled) hothers hok
      refine ⟨h', fun j => ?_⟩
      rw [hanswer, hcarried, echoed]
      by_cases hji : j = i
      · have houtput : (s₁.conn i).outputBuffer.toList = (s.conn i).outputBuffer.toList :=
          (step_dry h.good.steady (h.not_sends ha i) hlibrary hi).output_eq
        rw [hji, houtput]
      · rw [hothers j hji, ite_self, ite_self]

/-- The program uses the library as it should be used. -/
lemma Echoing.refines {a : Action} (h : Echoing cfg s fun _ => [])
    (hproper : s.Proper a.library) (hok : EchoServer.step mem s a = .ok s') :
    ∃ bs, Machine.run (System.step mem) s bs = .ok s' ∧
      ∀ p ∈ Machine.steps (System.step mem) s bs, p.1.Proper p.2 ∧ p.1.Timely p.2 := by
  rw [EchoServer.step] at hok
  split_ifs at hok with ha
  rw [Bool.not_eq_true] at ha
  rw [bind_eq_ok] at hok
  obtain ⟨s₁, hlibrary, hok⟩ := hok
  obtain ⟨h₁, -⟩ := h.library hproper ha hlibrary
  have hfair : s.Proper a.library ∧ s.Timely a.library := ⟨hproper, timely_of_library ha⟩
  cases hcalled : EchoServer.called s a.library with
  | none =>
      rw [hcalled, pure_eq_ok, Except.ok.injEq] at hok
      subst hok
      refine ⟨[a.library], by rw [Machine.run_cons_ok hlibrary, Machine.run_nil], ?_⟩
      rw [Machine.steps_cons_ok hlibrary]
      simpa [Machine.steps] using hfair
  | some i =>
      rw [hcalled] at hok
      obtain ⟨-, -, hi₁, -, -⟩ := h.called hlibrary hcalled
      have hwf := h₁.good.fed.wf i hi₁
      dsimp only at hok
      rw [messageCallback] at hok
      split_ifs at hok
      · rw [message_eq hwf (h₁.size i hi₁), bind_ok, bind_eq_ok] at hok
        obtain ⟨-, -, hok⟩ := hok
        obtain ⟨s₂, hcall, hretrieve⟩ := bind_eq_ok.mp hok
        refine ⟨[a.library, .call i (.send (s₁.conn i).inputBuffer.toList) a.outcome,
          .retrieveInput i (s₂.conn i).inputBuffer.readableBytes], ?_, ?_⟩
        · rw [Machine.run_cons_ok hlibrary, Machine.run_cons_ok hcall, Machine.run_cons_ok hretrieve, Machine.run_nil]
        · rw [Machine.steps_cons_ok hlibrary, Machine.steps_cons_ok hcall, Machine.steps_cons_ok hretrieve]
          simp only [List.forall_mem_cons]
          exact ⟨hfair, ⟨length_toList_lt hwf, trivial⟩, ⟨le_refl (s₂.conn i).inputBuffer.readableBytes, trivial⟩,
            by simp [Machine.steps]⟩
      · obtain rfl := Except.ok.inj hok
        refine ⟨[a.library], by rw [Machine.run_cons_ok hlibrary, Machine.run_nil], ?_⟩
        rw [Machine.steps_cons_ok hlibrary]
        simpa [Machine.steps] using hfair

lemma echoing_of_mem {as : List Action}
    (hproper : ∀ p ∈ Machine.steps (EchoServer.step cfg.mem) (svr cfg).start as, p.1.Proper p.2.library) :
    ∀ s ∈ Machine.states (EchoServer.step cfg.mem) (svr cfg).start as, Echoing (svr cfg) s fun _ => [] :=
  Machine.states_invariant_of_steps (C := fun s a => s.Proper a.library)
    (fun _ _ _ h hstep hok => (h.step hstep hok).1) (echoing_start _) hproper

/-- A connection is accepted, and gets three bytes, of which the kernel takes two back. -/
def slowPeer : List Action :=
  [⟨.poll .base [(7, {.epollin})], .wrote 0, false⟩, ⟨.next .base none (.error 0) (.wrote 0), .wrote 0, false⟩,
    ⟨.next .base (some 8) (.error 0) (.wrote 0), .wrote 0, false⟩, ⟨.poll (.io 0) [], .wrote 0, false⟩,
    ⟨.takePending (.io 0), .wrote 0, false⟩, ⟨.nextFunctor (.io 0) (.wrote 0), .wrote 0, false⟩,
    ⟨.endRound (.io 0), .wrote 0, false⟩, ⟨.poll (.io 0) [(8, {.epollin})], .wrote 0, false⟩,
    ⟨.next (.io 0) none (.error 0) (.wrote 0), .wrote 0, false⟩,
    ⟨.next (.io 0) none (.bytes [1, 2, 3]) (.wrote 0), .wrote 2, false⟩]

/-- It gets two more, and the kernel would take them. -/
def oneMoreRound : List Action :=
  [⟨.takePending (.io 0), .wrote 0, false⟩, ⟨.endRound (.io 0), .wrote 0, false⟩,
    ⟨.poll (.io 0) [(8, {.epollin})], .wrote 0, false⟩, ⟨.next (.io 0) none (.error 0) (.wrote 0), .wrote 0, false⟩,
    ⟨.next (.io 0) none (.bytes [4, 5]) (.wrote 0), .wrote 2, false⟩]

/-- **The echo is intact.**  At the end of such a run, of every connection accepted: what the kernel has taken for the
peer, followed by the output buffer, is what was received from it, in its order, but for the pieces whose write
failed with an error that `sendInLoop` takes for a fault; and nothing waits to be read. -/
theorem echo_intact (cfg : Setting) (as : List Action)
    (hproper : ∀ p ∈ Machine.steps (EchoServer.step cfg.mem) (svr cfg).start as, p.1.Proper p.2.library)
    (h : Machine.run (EchoServer.step cfg.mem) (svr cfg).start as = .ok s) :
    ∀ i < s.accepted,
      wire (s.conn i).trace ++ (s.conn i).outputBuffer.toList
        = Machine.collect (echoed · i) (Machine.steps (EchoServer.step cfg.mem) (svr cfg).start as) ∧
      (s.conn i).inputBuffer.toList = [] := by
  intro i hi
  have hfifo := Machine.run_fifo_of_steps (I := fun s => Echoing (svr cfg) s fun _ => [])
    (C := fun (s : System) (a : Action) => s.Proper a.library) (carried · i) (echoed · i) (fun _ _ => []) ?_
    (echoing_start _) hproper h
  · have hstart : carried (svr cfg).start i = [] := if_neg (Nat.not_lt_zero i)
    rw [hstart, Machine.collect_none, List.nil_append, List.nil_append, carried, if_pos hi] at hfifo
    exact ⟨hfifo.symm, (echoing_of_mem hproper s (Machine.mem_states_of_run h)).input i hi⟩
  · intro t a t' ht hstep hok
    obtain ⟨ht', hcarried⟩ := ht.step hstep hok
    exact ⟨ht', by rw [List.nil_append, hcarried]⟩

/-- Of the three bytes one waits. -/
theorem echo_intact_slowPeer :
    ∃ s, Machine.run (EchoServer.step oneThread.mem) (svr oneThread).start slowPeer = .ok s ∧
      wire (s.conn 0).trace = [1, 2] ∧ (s.conn 0).outputBuffer.toList = [3] ∧
      Machine.collect (echoed · 0) (Machine.steps (EchoServer.step oneThread.mem) (svr oneThread).start slowPeer)
        = [1, 2, 3] := by
  have hrun : (Machine.run (EchoServer.step oneThread.mem) (svr oneThread).start slowPeer).map
      (fun s => (s.accepted, wire (s.conn 0).trace, (s.conn 0).outputBuffer.toList)) = .ok (1, [1, 2], [3]) := by
    decide +kernel
  obtain ⟨s, hs, hobs⟩ := Machine.ok_of_map hrun
  obtain ⟨haccepted, hwire, houtput⟩ : s.accepted = 1 ∧ wire (s.conn 0).trace = [1, 2] ∧
      (s.conn 0).outputBuffer.toList = [3] := by
    simpa using hobs
  have hproper : ∀ p ∈ Machine.steps (EchoServer.step oneThread.mem) (svr oneThread).start slowPeer,
      p.1.Proper p.2.library := by
    decide +kernel
  have hintact := (echo_intact oneThread slowPeer hproper hs 0 (by omega)).1
  rw [hwire, houtput] at hintact
  exact ⟨s, hs, hwire, houtput, hintact.symm⟩

/-- What a step of the program does to the stream of a connection. -/
lemma Echoing.backs {a : Action} (h : Echoing cfg s fun _ => [])
    (hproper : s.Proper a.library) (hok : EchoServer.step mem s a = .ok s') : s.Backs s' := by
  obtain ⟨bs, hbs, hall⟩ := h.refines hproper hok
  have hrefl : s.Backs s := ⟨le_rfl, fun i _ => (Dry.of_eq rfl rfl).stalls⟩
  have hrun := Machine.states_invariant_of_steps (I := fun t : System => t.Good cfg ∧ s.Backs t)
    (C := fun t a => t.Proper a ∧ t.Timely a) ?_ ⟨h.good, hrefl⟩ hall
  · exact (hrun s' (Machine.mem_states_of_run hbs)).2
  · rintro t a t' ⟨ht, hbacks⟩ hstep hok'
    refine ⟨ht.step hstep.1 hstep.2 hok', hbacks.accepted_le.trans (step_continues hok').accepted_le, fun i hi => ?_⟩
    exact (hbacks.stalls i hi).trans (step_stalls ht.steady hok' (hi.trans_le hbacks.accepted_le))

/-- **A peer that is slow once.**  If in such a run something waits in the output buffer of a connection, then however
the run goes on the peer is sent nothing any more, and everything received from it is put into the output buffer. -/
theorem echo_stalls (cfg : Setting) (as bs : List Action)
    (hproper : ∀ p ∈ Machine.steps (EchoServer.step cfg.mem) (svr cfg).start (as ++ bs), p.1.Proper p.2.library)
    (has : Machine.run (EchoServer.step cfg.mem) (svr cfg).start as = .ok s)
    (hbs : Machine.run (EchoServer.step cfg.mem) s bs = .ok s') (hi : i < s.accepted)
    (hbacklog : (s.conn i).outputBuffer.toList ≠ []) :
    wire (s'.conn i).trace = wire (s.conn i).trace ∧
      (s'.conn i).outputBuffer.toList = (s.conn i).outputBuffer.toList ++
        Machine.collect (fun t a => t.delivered i a.library) (Machine.steps (EchoServer.step cfg.mem) s bs) := by
  rw [Machine.steps_append has] at hproper
  obtain ⟨hbefore, hafter⟩ := List.forall_mem_append.mp hproper
  have h := echoing_of_mem hbefore s (Machine.mem_states_of_run has)
  -- something waits all along
  have hkeeps : ∀ (t : System) (a : Action) t', (Echoing (svr cfg) t (fun _ => []) ∧ i < t.accepted ∧
      (t.conn i).outputBuffer.toList ≠ [] ∧ wire (t.conn i).trace = wire (s.conn i).trace) →
      t.Proper a.library → EchoServer.step cfg.mem t a = .ok t' →
      (Echoing (svr cfg) t' (fun _ => []) ∧ i < t'.accepted ∧ (t'.conn i).outputBuffer.toList ≠ [] ∧
        wire (t'.conn i).trace = wire (s.conn i).trace) ∧
        (t.conn i).outputBuffer.toList ++ t.delivered i a.library = [] ++ (t'.conn i).outputBuffer.toList := by
    rintro t a t' ⟨ht, hlt, hne, hwire⟩ hstep hok
    obtain ⟨ht', hcarried⟩ := ht.step hstep hok
    have hbacks := ht.backs hstep hok
    have hlt' := hlt.trans_le hbacks.accepted_le
    have hwire' : wire (t'.conn i).trace = wire (t.conn i).trace := (hbacks.stalls i hlt).wire_eq hne
    have houtput := hcarried i
    rw [carried, carried, if_pos hlt, if_pos hlt', hwire', echoed, if_neg fun hidle => hne hidle.1, List.append_assoc,
      List.append_cancel_left_eq] at houtput
    refine ⟨⟨ht', hlt', ?_, hwire'.trans hwire⟩, by rw [houtput, List.nil_append]⟩
    rw [houtput]
    exact List.append_ne_nil_of_left_ne_nil hne _
  have hfifo := Machine.run_fifo_of_steps (fun t : System => (t.conn i).outputBuffer.toList)
    (fun t a => t.delivered i a.library) (fun _ _ => []) hkeeps ⟨h, hi, hbacklog, rfl⟩ hafter hbs
  have hend := Machine.states_invariant_of_steps (fun t a t' ht hstep hok => (hkeeps t a t' ht hstep hok).1)
    ⟨h, hi, hbacklog, rfl⟩ hafter s' (Machine.mem_states_of_run hbs)
  refine ⟨hend.2.2.2, ?_⟩
  rw [Machine.collect_none, List.nil_append] at hfifo
  exact hfifo.symm

/-- The peer never gets the last three of the five bytes. -/
theorem echo_stalls_slowPeer :
    ∃ s s', Machine.run (EchoServer.step oneThread.mem) (svr oneThread).start slowPeer = .ok s ∧
      Machine.run (EchoServer.step oneThread.mem) s oneMoreRound = .ok s' ∧ wire (s'.conn 0).trace = [1, 2] ∧
      (s'.conn 0).outputBuffer.toList = [3] ++
        Machine.collect (fun t a => t.delivered 0 a.library)
          (Machine.steps (EchoServer.step oneThread.mem) s oneMoreRound) := by
  have hrun : (Machine.run (EchoServer.step oneThread.mem) (svr oneThread).start slowPeer).map
      (fun s => (s.accepted, wire (s.conn 0).trace, (s.conn 0).outputBuffer.toList)) = .ok (1, [1, 2], [3]) := by
    decide +kernel
  obtain ⟨s, hs, hobs⟩ := Machine.ok_of_map hrun
  obtain ⟨haccepted, hwire, houtput⟩ : s.accepted = 1 ∧ wire (s.conn 0).trace = [1, 2] ∧
      (s.conn 0).outputBuffer.toList = [3] := by
    simpa using hobs
  have hrun' : (Machine.run (EchoServer.step oneThread.mem) (svr oneThread).start (slowPeer ++ oneMoreRound)).map
      (fun s => s.accepted) = .ok 1 := by
    decide +kernel
  obtain ⟨s', hs', -⟩ := Machine.ok_of_map hrun'
  rw [Machine.run_append hs] at hs'
  have hproper : ∀ p ∈ Machine.steps (EchoServer.step oneThread.mem) (svr oneThread).start (slowPeer ++ oneMoreRound),
      p.1.Proper p.2.library := by
    decide +kernel
  obtain ⟨hwire', houtput'⟩ :=
    echo_stalls oneThread slowPeer oneMoreRound hproper hs hs' (i := 0) (by omega) (by simp [houtput])
  rw [hwire] at hwire'
  rw [houtput] at houtput'
  exact ⟨s, s', hs, hs', hwire', houtput'⟩

end EchoServer

end Seenet
