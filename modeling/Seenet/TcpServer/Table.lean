import Seenet.TcpServer.Confinement

/-!
# The entries of the connection table

`m_connections` should hold the connections that have been accepted and not removed, each under its name.
The name ends in the number of the connection, so different connections have different names as long as the
text of the number is not cut off; and `snprintf` has room for it, whatever the listening address.  But the
number is an `int`, and after `2 ^ 32` connections it comes again.

`removed` is not in the source.  It records the connections `removeConnectionInLoop` was called for.

* `Table.Exact` — the table holds the live connections, and nothing else.
* `Table.Keeps` — a call takes no entry away, but that of the connection it removes.
* `Table.Collides` — a call comes upon a live connection `2 ^ 32` (or a multiple of it) away.
* **`Table.exact_iff`** — in a run, the table is exact and every call keeps the entries of the others exactly
  when no call collides.
* **`Table.not_exact`** — the connection after the first `2 ^ 32` ones takes the place of the first.
-/

namespace Seenet

namespace TcpServer

variable {s s' : TcpServer} {ipPort name : String} {numThreads i j : ℕ}

/-! ## Names -/

/-- The name of the connection `i`, counted from 0. -/
def nameOf (ipPort name : String) (i : ℕ) : String :=
  name ++ snprintf 64 ("-" ++ ipPort ++ "#" ++ toString (BitVec.ofNat 32 (i + 1)).toInt)

/-- The sign, and ten digits. -/
lemma length_connID_le (x : BitVec 32) : (toString x.toInt).length ≤ 11 := by
  refine Decimal.length_toString_int_le (k := 10) (by decide) ?_
  have hlt := BitVec.toInt_lt (x := x)
  have hle := BitVec.le_toInt x
  norm_num at hlt hle ⊢
  omega

/-- The number fits behind the address. -/
lemma snprintf_connID (h : ipPort.length ≤ 50) (x : BitVec 32) :
    snprintf 64 ("-" ++ ipPort ++ "#" ++ toString x.toInt)
      = "-" ++ ipPort ++ "#" ++ toString x.toInt := by
  apply snprintf_eq
  have hid := length_connID_le x
  have hminus : "-".length = 1 := rfl
  have hhash : "#".length = 1 := rfl
  simp only [String.length_append, hminus, hhash]
  omega

/-- **Names are equal when the numbers are**, up to a multiple of `2 ^ 32`. -/
lemma nameOf_inj (h : ipPort.length ≤ 50) :
    nameOf ipPort name i = nameOf ipPort name j ↔ i % 2 ^ 32 = j % 2 ^ 32 := by
  have hnum : BitVec.ofNat 32 (i + 1) = BitVec.ofNat 32 (j + 1) ↔ i % 2 ^ 32 = j % 2 ^ 32 := by
    rw [← BitVec.toNat_inj, BitVec.toNat_ofNat, BitVec.toNat_ofNat]
    omega
  rw [nameOf, nameOf, snprintf_connID h, snprintf_connID h, String.append_right_inj,
    String.append_right_inj, Decimal.toString_int_injective.eq_iff, BitVec.toInt_inj, hnum]

/-! ## `newConnection` -/

/-- What `newConnection` does. -/
structure Accepts (s s' : TcpServer) : Prop where
  ipPort : s'.ipPort = s.ipPort
  name : s'.name = s.name
  nextConnID : s'.nextConnID = s.nextConnID + 1
  accepted : s'.accepted = s.accepted + 1
  connections : s'.connections = Function.update s.connections s.connName (some s.accepted)
  conn : ∃ ioLoop state, s'.conn = Function.update s.conn s.accepted ⟨s.connName, ioLoop, state⟩
  functors : s'.functors = s.functors ∨
    ∃ l, s'.functors
      = Function.update s.functors l ((s.functors l).push (.connectEstablished s.accepted))

lemma newConnection_spec (h : s.threadPool.Running numThreads) (t : LoopId) :
    ∃ s', s.newConnection t = .ok s' ∧ s'.threadPool.Running numThreads ∧ Accepts s s' := by
  obtain ⟨ioLoop, threadPool, hnext, hrunning, -⟩ := EventLoopThreadPool.getNextLoop_spec h
  rw [newConnection, hnext, bind_ok]
  dsimp only
  rw [runInLoop]
  split_ifs with ht
  · have hconn : (({ s with threadPool := threadPool } : TcpServer).construct t ioLoop).conn s.accepted
        = ⟨s.connName, ioLoop, .kConnecting⟩ := Function.update_self ..
    rw [runFunctor, connectEstablished, hconn, assertThat_pos rfl, bind_ok, pure_eq_ok]
    refine ⟨_, rfl, hrunning, rfl, rfl, rfl, rfl, rfl, ⟨ioLoop, .kConnected, ?_⟩, Or.inl rfl⟩
    rw [setState, hconn]
    exact Function.update_idem ..
  · exact ⟨_, rfl, hrunning, rfl, rfl, rfl, rfl, rfl, ⟨ioLoop, .kConnecting, rfl⟩,
      Or.inr ⟨ioLoop, rfl⟩⟩

lemma Accepts.conn_name_self (h : Accepts s s') : (s'.conn s.accepted).name = s.connName := by
  obtain ⟨ioLoop, state, hconn⟩ := h.conn
  rw [hconn, Function.update_self]

lemma Accepts.conn_of_ne (h : Accepts s s') (hne : i ≠ s.accepted) : s'.conn i = s.conn i := by
  obtain ⟨ioLoop, state, hconn⟩ := h.conn
  rw [hconn, Function.update_of_ne hne]

/-! ## Runs -/

/-- A server, and the connections that have been removed. -/
structure Table where
  server : TcpServer
  removed : List ℕ

namespace Table

/-- A call, with the thread that makes it. -/
inductive Action
  | newConnection (t : LoopId)
  | removeConnectionInLoop (t : LoopId) (conn : ℕ)
  deriving DecidableEq, Repr

/-- A server that has just been started. -/
def create (ipPort name : String) (numThreads : ℕ) : Table := ⟨serving ipPort name numThreads, []⟩

/-- One call.  A connection that is removed, once or again, has been accepted. -/
def step (s : Table) : Action → Res Table
  | .newConnection t => do
      let server ← s.server.newConnection t
      return { s with server := server }
  | .removeConnectionInLoop t i =>
      if i < s.server.accepted then
        .ok ⟨s.server.removeConnectionInLoop t i, i :: s.removed⟩
      else .error .disabled

/-- The connection has been accepted and not removed. -/
def Live (s : Table) (i : ℕ) : Prop := i < s.server.accepted ∧ i ∉ s.removed

/-- There is one entry for each live connection, under its name, and no other entry. -/
def Exact (s : Table) : Prop :=
  ∀ name i, s.server.connections name = some i ↔ s.Live i ∧ (s.server.conn i).name = name

/-- Every entry stays, except that of a connection which is removed. -/
def Keeps (s : Table) (a : Action) (s' : Table) : Prop :=
  ∀ name i, s.server.connections name = some i →
    (s'.server.connections name = some i ↔ ∀ t, a ≠ .removeConnectionInLoop t i)

/-- A live connection has the number of the next one, or that of one which is removed again. -/
def Collides (s : Table) : Action → Prop
  | .newConnection _ => ∃ i, s.Live i ∧ i % 2 ^ 32 = s.server.accepted % 2 ^ 32
  | .removeConnectionInLoop _ i => i ∈ s.removed ∧ ∃ j, s.Live j ∧ j % 2 ^ 32 = i % 2 ^ 32

/-- The connections are numbered in the order they were accepted. -/
structure Numbered (s : Table) (ipPort name : String) (numThreads : ℕ) : Prop where
  pool : s.server.threadPool.Running numThreads
  ipPort_eq : s.server.ipPort = ipPort
  name_eq : s.server.name = name
  nextConnID : s.server.nextConnID = BitVec.ofNat 32 (s.server.accepted + 1)
  names : ∀ i < s.server.accepted, (s.server.conn i).name = nameOf ipPort name i
  removed : ∀ i ∈ s.removed, i < s.server.accepted

variable {s s' : Table} {t : LoopId} {a : Action}

lemma create_numbered (ipPort name : String) (numThreads : ℕ) :
    (create ipPort name numThreads).Numbered ipPort name numThreads ∧
      (create ipPort name numThreads).Exact := by
  obtain ⟨p, hturn, heq⟩ := serving_eq ipPort name numThreads
  rw [create, heq]
  refine ⟨⟨hturn.toRunning, rfl, rfl, rfl, ?_, by simp⟩, ?_⟩
  · intro i hi
    exact absurd hi (Nat.not_lt_zero i)
  · intro name i
    simp [TcpServer.create, Live]

lemma Numbered.connName (h : s.Numbered ipPort name numThreads) :
    s.server.connName = nameOf ipPort name s.server.accepted := by
  rw [TcpServer.connName, h.name_eq, h.ipPort_eq, h.nextConnID, nameOf]

/-! ## One call -/

lemma step_newConnection (h : s.Numbered ipPort name numThreads) (t : LoopId) :
    ∃ s', s.step (.newConnection t) = .ok s' ∧ s'.server.threadPool.Running numThreads ∧
      Accepts s.server s'.server ∧ s'.removed = s.removed := by
  obtain ⟨server, hok, hrunning, haccepts⟩ := newConnection_spec h.pool t
  exact ⟨⟨server, s.removed⟩, by rw [step, hok, bind_ok, pure_eq_ok], hrunning, haccepts, rfl⟩

/-- **What a call does.** -/
lemma step_cases (h : s.Numbered ipPort name numThreads) (hok : s.step a = .ok s') :
    (∃ t, a = .newConnection t ∧ s'.server.threadPool.Running numThreads ∧
      Accepts s.server s'.server ∧ s'.removed = s.removed) ∨
    (∃ t i, a = .removeConnectionInLoop t i ∧ i < s.server.accepted ∧
      s' = ⟨s.server.removeConnectionInLoop t i, i :: s.removed⟩) := by
  cases a with
  | newConnection t =>
      obtain ⟨s₁, hok₁, hs₁⟩ := step_newConnection h t
      obtain rfl := Except.ok.inj (hok₁.symm.trans hok)
      exact Or.inl ⟨t, rfl, hs₁⟩
  | removeConnectionInLoop t i =>
      rw [step, guard_eq_ok, Except.ok.injEq] at hok
      exact Or.inr ⟨t, i, rfl, hok.1, hok.2.symm⟩

lemma Numbered.step (h : s.Numbered ipPort name numThreads) (hok : s.step a = .ok s') :
    s'.Numbered ipPort name numThreads := by
  rcases step_cases h hok with ⟨t, -, hrunning, haccepts, hremoved⟩ | ⟨t, i, -, hi, rfl⟩
  · refine ⟨hrunning, haccepts.ipPort.trans h.ipPort_eq, haccepts.name.trans h.name_eq, ?_, ?_, ?_⟩
    · rw [haccepts.nextConnID, haccepts.accepted, h.nextConnID]
      exact (BitVec.ofNat_add _ 1).symm
    · intro i hi
      rw [haccepts.accepted] at hi
      rcases Nat.lt_succ_iff_lt_or_eq.mp hi with hlt | rfl
      · rw [haccepts.conn_of_ne hlt.ne]
        exact h.names i hlt
      · rw [haccepts.conn_name_self, h.connName]
    · rw [hremoved, haccepts.accepted]
      exact fun i hi => Nat.lt_succ_of_lt (h.removed i hi)
  · refine ⟨h.pool, h.ipPort_eq, h.name_eq, h.nextConnID, h.names, ?_⟩
    exact List.forall_mem_cons.mpr ⟨hi, h.removed⟩

lemma live_of_accepts (h : s.Numbered ipPort name numThreads) (haccepts : Accepts s.server s'.server)
    (hremoved : s'.removed = s.removed) : s'.Live i ↔ s.Live i ∨ i = s.server.accepted := by
  have hnew : s.server.accepted ∉ s.removed := fun hmem => absurd (h.removed _ hmem) (lt_irrefl _)
  rw [Live, Live, haccepts.accepted, hremoved]
  constructor
  · rintro ⟨hlt, hnot⟩
    rcases Nat.lt_succ_iff_lt_or_eq.mp hlt with hlt | heq
    · exact Or.inl ⟨hlt, hnot⟩
    · exact Or.inr heq
  · rintro (⟨hlt, hnot⟩ | rfl)
    · exact ⟨Nat.lt_succ_of_lt hlt, hnot⟩
    · exact ⟨Nat.lt_succ_self _, hnew⟩

lemma live_of_removes :
    Live ⟨s.server.removeConnectionInLoop t i, i :: s.removed⟩ j ↔ s.Live j ∧ j ≠ i := by
  rw [Live, Live, List.mem_cons, not_or]
  constructor
  · rintro ⟨hlt, hne, hnot⟩
    exact ⟨⟨hlt, hnot⟩, hne⟩
  · rintro ⟨⟨hlt, hnot⟩, hne⟩
    exact ⟨hlt, hne, hnot⟩

/-- Two live connections, or connections that have been so, share a name when their numbers are the same. -/
lemma Numbered.name_eq_iff (h : s.Numbered ipPort name numThreads) (hlen : ipPort.length ≤ 50)
    (hi : i < s.server.accepted) (hj : j < s.server.accepted) :
    (s.server.conn i).name = (s.server.conn j).name ↔ i % 2 ^ 32 = j % 2 ^ 32 := by
  rw [h.names i hi, h.names j hj, nameOf_inj hlen]

lemma Numbered.connName_eq_iff (h : s.Numbered ipPort name numThreads) (hlen : ipPort.length ≤ 50)
    (hi : i < s.server.accepted) :
    (s.server.conn i).name = s.server.connName ↔ i % 2 ^ 32 = s.server.accepted % 2 ^ 32 := by
  rw [h.names i hi, h.connName, nameOf_inj hlen]

/-- **A call that does not collide** leaves the table exact. -/
lemma Exact.step (hexact : s.Exact) (h : s.Numbered ipPort name numThreads)
    (hlen : ipPort.length ≤ 50) (hnot : ¬ s.Collides a) (hok : s.step a = .ok s') : s'.Exact := by
  intro name' j
  rcases step_cases h hok with ⟨t, rfl, -, haccepts, hremoved⟩ | ⟨t, i, rfl, hi, rfl⟩
  · rw [haccepts.connections, live_of_accepts h haccepts hremoved]
    by_cases hname : name' = s.server.connName
    · rw [hname, Function.update_self, Option.some.injEq]
      constructor
      · rintro rfl
        exact ⟨Or.inr rfl, haccepts.conn_name_self⟩
      · rintro ⟨hlive | rfl, hj⟩
        · rw [haccepts.conn_of_ne hlive.1.ne, h.connName_eq_iff hlen hlive.1] at hj
          exact absurd ⟨j, hlive, hj⟩ hnot
        · rfl
    · rw [Function.update_of_ne hname, hexact]
      constructor
      · rintro ⟨hlive, hj⟩
        exact ⟨Or.inl hlive, by rwa [haccepts.conn_of_ne hlive.1.ne]⟩
      · rintro ⟨hlive | rfl, hj⟩
        · rw [haccepts.conn_of_ne hlive.1.ne] at hj
          exact ⟨hlive, hj⟩
        · rw [haccepts.conn_name_self] at hj
          exact absurd hj.symm hname
  · rw [live_of_removes]
    change Function.update s.server.connections (s.server.conn i).name none name' = some j ↔
      (s.Live j ∧ j ≠ i) ∧ (s.server.conn j).name = name'
    by_cases hname : name' = (s.server.conn i).name
    · rw [hname, Function.update_self]
      refine iff_of_false (by simp) ?_
      rintro ⟨⟨hlive, hne⟩, hj⟩
      by_cases hremoved : i ∈ s.removed
      · exact hnot ⟨hremoved, j, hlive, (h.name_eq_iff hlen hlive.1 hi).mp hj⟩
      · have hi' := (hexact _ i).mpr ⟨⟨hi, hremoved⟩, rfl⟩
        have hj' := (hexact _ j).mpr ⟨hlive, hj⟩
        exact hne (Option.some.inj (hj'.symm.trans hi'))
    · rw [Function.update_of_ne hname, hexact]
      constructor
      · rintro ⟨hlive, hj⟩
        refine ⟨⟨hlive, ?_⟩, hj⟩
        rintro rfl
        exact hname hj.symm
      · rintro ⟨⟨hlive, -⟩, hj⟩
        exact ⟨hlive, hj⟩

/-- **A call that collides** takes the entry of a live connection. -/
lemma not_exact_of_collides (h : s.Numbered ipPort name numThreads) (hlen : ipPort.length ≤ 50)
    (hcollides : s.Collides a) (hok : s.step a = .ok s') : ¬ s'.Exact := by
  intro hexact
  rcases step_cases h hok with ⟨t, rfl, -, haccepts, hremoved⟩ | ⟨t, i, rfl, hi, rfl⟩
  · obtain ⟨i, hlive, hnum⟩ := hcollides
    have hname := (h.connName_eq_iff hlen hlive.1).mpr hnum
    have hentry := (hexact s.server.connName i).mpr
      ⟨(live_of_accepts h haccepts hremoved).mpr (Or.inl hlive),
        by rw [haccepts.conn_of_ne hlive.1.ne, hname]⟩
    rw [haccepts.connections, Function.update_self, Option.some.injEq] at hentry
    exact hlive.1.ne hentry.symm
  · obtain ⟨hremoved, j, hlive, hnum⟩ := hcollides
    have hne : j ≠ i := by
      rintro rfl
      exact hlive.2 hremoved
    have hname := (h.name_eq_iff hlen hlive.1 hi).mpr hnum
    have hentry := (hexact (s.server.conn i).name j).mpr
      ⟨(live_of_removes).mpr ⟨hlive, hne⟩, hname⟩
    have hnone : (s.server.removeConnectionInLoop t i).connections (s.server.conn i).name = none :=
      Function.update_self ..
    exact absurd (hnone.symm.trans hentry) (by simp)

lemma keeps_of_exact (h : s.Numbered ipPort name numThreads) (hexact : s.Exact)
    (hexact' : s'.Exact) (hok : s.step a = .ok s') : s.Keeps a s' := by
  intro name' i hentry
  obtain ⟨hlive, hname⟩ := (hexact name' i).mp hentry
  rw [hexact']
  rcases step_cases h hok with ⟨t, rfl, -, haccepts, hremoved⟩ | ⟨t, k, rfl, hk, rfl⟩
  · rw [live_of_accepts h haccepts hremoved, haccepts.conn_of_ne hlive.1.ne]
    simp [hlive, hname]
  · have hsame : (s.server.removeConnectionInLoop t k).conn i = s.server.conn i := rfl
    rw [live_of_removes, hsame]
    simp only [hlive, hname, true_and, and_true, ne_eq, Action.removeConnectionInLoop.injEq, not_and]
    exact ⟨fun hne _ _ hk => hne hk.symm, fun hall heq => hall t rfl heq.symm⟩

/-! ## Whole runs -/

/-- **When the table holds exactly the live connections.**  For every listening address and every sequence of
calls, the table is exact in every state and every call takes no entry but that of the connection it removes,
if and only if no call comes upon a live connection whose number is that of the next connection, or of the
connection that is removed again. -/
theorem exact_iff (listenAddr : InetAddress) (name : String) (numThreads : ℕ) (as : List Action) :
    ∃ ipPort, listenAddr.toIpPort = .ok ipPort ∧
      (((∀ s ∈ Machine.states step (create ipPort name numThreads) as, s.Exact) ∧
        ∀ p ∈ Machine.steps step (create ipPort name numThreads) as,
          ∀ s', p.1.step p.2 = .ok s' → p.1.Keeps p.2 s') ↔
      ∀ p ∈ Machine.steps step (create ipPort name numThreads) as, ¬ p.1.Collides p.2) := by
  obtain ⟨ipPort, hip, hshort⟩ := listenAddr.length_toIpPort_le
  have hlen : ipPort.length ≤ 50 := hshort.trans (by decide)
  have hcreate := create_numbered ipPort name numThreads
  have hstep : ∀ (s : Table) (a : Action) (s' : Table),
      s.Numbered ipPort name numThreads ∧ s.Exact → ¬ s.Collides a → s.step a = .ok s' →
      s'.Numbered ipPort name numThreads ∧ s'.Exact :=
    fun s a s' h hnot hok => ⟨h.1.step hok, h.2.step h.1 hlen hnot hok⟩
  refine ⟨ipPort, hip, ?_⟩
  rw [Machine.forall_states_iff
    (I := fun s : Table => s.Numbered ipPort name numThreads ∧ s.Exact)
    (C := fun s a => ¬ s.Collides a) (fun s h => h.2) hstep
    (fun s a s' h hcollides hok => not_exact_of_collides h.1 hlen (not_not.mp hcollides) hok)
    hcreate as]
  refine and_iff_left_of_imp fun hnot => ?_
  intro p hp s' hok
  obtain ⟨hnumbered, hexact⟩ := Machine.states_invariant_of_steps
    (I := fun s : Table => s.Numbered ipPort name numThreads ∧ s.Exact)
    (C := fun s a => ¬ s.Collides a) hstep hcreate hnot _ (Machine.state_of_mem_steps hp)
  exact keeps_of_exact hnumbered hexact (hexact.step hnumbered hlen (hnot p hp) hok) hok

/-- Connections are accepted one after another. -/
lemma run_newConnection (h : s.Numbered ipPort name numThreads) (t : LoopId) (n : ℕ) :
    ∃ s', Machine.run step s (List.replicate n (.newConnection t)) = .ok s' ∧
      s'.Numbered ipPort name numThreads ∧ s'.removed = s.removed ∧
      s'.server.accepted = s.server.accepted + n := by
  induction n generalizing s with
  | zero => exact ⟨s, rfl, h, rfl, rfl⟩
  | succ n ih =>
      obtain ⟨s₁, hok₁, -, haccepts, hremoved⟩ := step_newConnection h t
      obtain ⟨s', hok, h', hremoved', haccepted⟩ := ih (h.step hok₁)
      refine ⟨s', ?_, h', hremoved'.trans hremoved, ?_⟩
      · rw [List.replicate_succ, Machine.run_cons_ok hok₁, hok]
      · rw [haccepted, haccepts.accepted]
        omega

/-- The address `127.0.0.1:9981`. -/
def loopback : InetAddress where
  sin_family := sockets.AF_INET
  sin_port := sockets.hostToNetwork16 9981
  sin_addr := sockets.hostToNetwork32 0x7f000001
  sin6_addr := .replicate 16 0

/-- **An entry that is overwritten.**  After `2 ^ 32` connections, the next one is put into the table under the
name of the first, which is live. -/
theorem not_exact :
    loopback.toIpPort = .ok "127.0.0.1:9981" ∧
    ∃ s : Table, Machine.run step (create "127.0.0.1:9981" "echo" 0)
        (List.replicate (2 ^ 32 + 1) (.newConnection .base)) = .ok s ∧
      s.Live 0 ∧ (s.server.conn 0).name = "echo-127.0.0.1:9981#1" ∧
      s.server.connections "echo-127.0.0.1:9981#1" = some (2 ^ 32) ∧ ¬ s.Exact := by
  refine ⟨by decide +kernel, ?_⟩
  have hlen : "127.0.0.1:9981".length ≤ 50 := by decide
  obtain ⟨hcreate, -⟩ := create_numbered "127.0.0.1:9981" "echo" 0
  have haccepted₀ : (create "127.0.0.1:9981" "echo" 0).server.accepted = 0 := rfl
  obtain ⟨s₁, hrun₁, h₁, hremoved₁, haccepted₁⟩ := run_newConnection hcreate .base (2 ^ 32)
  obtain ⟨s, hok, -, haccepts, hremoved⟩ := step_newConnection h₁ .base
  rw [haccepted₀, Nat.zero_add] at haccepted₁
  have hlive₁ : s₁.Live 0 := ⟨by omega, by rw [hremoved₁]; exact List.not_mem_nil⟩
  have hcollides : s₁.Collides (.newConnection .base) := ⟨0, hlive₁, by omega⟩
  have hname : nameOf "127.0.0.1:9981" "echo" 0 = "echo-127.0.0.1:9981#1" := by decide +kernel
  have hfirst : (s₁.server.conn 0).name = "echo-127.0.0.1:9981#1" := by
    rw [h₁.names 0 hlive₁.1, hname]
  refine ⟨s, ?_, (live_of_accepts h₁ haccepts hremoved).mpr (Or.inl hlive₁), ?_, ?_,
    not_exact_of_collides h₁ hlen hcollides hok⟩
  · rw [List.replicate_succ', Machine.run_append hrun₁, Machine.run_cons_ok hok, Machine.run_nil]
  · rw [haccepts.conn_of_ne hlive₁.1.ne, hfirst]
  · rw [haccepts.connections, ← hfirst,
      (h₁.connName_eq_iff hlen hlive₁.1).mpr (by omega), Function.update_self, haccepted₁]

end Table

end TcpServer

end Seenet
