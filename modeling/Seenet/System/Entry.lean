import Seenet.Acceptor.Descriptors
import Seenet.System.Safety

/-!
# What the server takes for granted

The whole server takes the descriptor of a new connection for one that nobody has, and knows nothing of `m_idleFd`.
Here it is put beside the acceptor and its system calls.

* `Acceptor.Agrees` — the two tables of descriptors agree, but for those the server is never told of.
* `Acceptor.respond`, `Acceptor.Beside` — what a step of the acceptor is for the server; and the two side by side.
* **`Acceptor.beside_agrees`** — the tables agree in every run, and the server can do what the acceptor asks of it.
-/

namespace Seenet

namespace System

variable {s s' : System} {mem : Memory} {l : LoopId}

lemma runInLoop_connectEstablished_fds {t : LoopId} {i : ℕ}
    (hok : s.runInLoop mem t l (.connectEstablished i) = .ok s') : s'.fds = s.fds := by
  rw [runInLoop] at hok
  split_ifs at hok
  · simp only [runTask, bind_eq_ok, pure_eq_ok, Except.ok.injEq] at hok
    obtain ⟨-, -, c, -, rfl⟩ := hok
    rfl
  · rw [← Except.ok.inj hok]
    rfl

/-- The descriptor is that of the connection from now on. -/
lemma newConnection_fds {fd : ℤ} (hok : s.newConnection mem l fd = .ok s') :
    s'.fds = Function.update s.fds fd (some (.socket s.accepted)) := by
  simp only [newConnection, bind_eq_ok, Prod.exists] at hok
  obtain ⟨ioLoop, pool, -, inputBuffer, -, outputBuffer, -, hok⟩ := hok
  exact runInLoop_connectEstablished_fds hok

end System

namespace Acceptor

variable {t t' : Acceptor} {s s' : System} {a : Action} {mem : Memory}

/-- A descriptor the server is told of. -/
def told : Option Descriptor → Bool
  | some .acceptSocket | some (.handed _) | some .other => true
  | some .idle | some (.accepted _) | none => false

/-- The server takes those descriptors to be open of which it is told. -/
def Agrees (t : Acceptor) (s : System) : Prop := ∀ fd, (s.fds fd).isSome = told (t.fds fd)

/-- One descriptor changes. -/
lemma Agrees.of_update (h : t.Agrees s) {fd : ℤ} {d : Option Descriptor} {o : Option Holder}
    (ht : t'.fds = Function.update t.fds fd d) (hs : s'.fds = Function.update s.fds fd o)
    (hsame : o.isSome = told d) : t'.Agrees s' := by
  intro fd'
  by_cases heq : fd' = fd
  · rw [ht, hs, heq, Function.update_self, Function.update_self, hsame]
  · rw [ht, hs, Function.update_of_ne heq, Function.update_of_ne heq, h fd']

/-- The server is not told. -/
lemma Agrees.of_own (h : t.Agrees s) {fd : ℤ} {d : Option Descriptor} (ht : t'.fds = Function.update t.fds fd d)
    (hold : told (t.fds fd) = false) (hnew : told d = false) : t'.Agrees s := by
  have hnone : (s.fds fd).isSome = told d := by rw [h fd, hold, hnew]
  exact h.of_update ht (Function.update_eq_self ..).symm hnone

lemma Agrees.of_eq (h : t.Agrees s) (ht : t'.fds = t.fds) : t'.Agrees s := by
  intro fd
  rw [h fd, ht]

lemma Kept.told_idleFd (h : t.Kept) (hplace : t.place.HasIdle) : told (t.fds t.idleFd) = false := by
  rcases h.idleFd with hnonneg | hneg
  · rw [h.lookup_idle hplace hnonneg]
    rfl
  · rw [hneg, h.lookup_neg]
    rfl

lemma Kept.told_connFd (h : t.Kept) {fd : ℤ} (hvalid : 0 ≤ fd ∨ fd = -1) (hhand : t.place.InHand t.idleFd fd) :
    told (t.fds fd) = false := by
  rcases hvalid with hnonneg | hneg
  · obtain ⟨n, hn⟩ := (h.accepted fd).mpr ⟨hnonneg, hhand⟩
    rw [hn]
    rfl
  · rw [hneg, h.lookup_neg]
    rfl

lemma Agrees.free (h : t.Agrees s) {fd : ℤ} (htold : told (t.fds fd) = false) : s.fds fd = none := by
  rw [← h fd, Option.isSome_eq_false_iff, Option.isNone_iff_eq_none] at htold
  exact htold

/-- **`newConnection`** can be called with the descriptor that the acceptor has. -/
lemma Kept.accepts (h : t.Kept) (hagrees : t.Agrees s) {fd : ℤ} (hplace : t.place = .accepted fd) (mem : Memory)
    (l : LoopId) : s.acceptorHandleRead mem l (some fd) = s.newConnection mem l fd := by
  have hnonneg := h.connFd fd hplace
  have hfree := hagrees.free (h.told_connFd (Or.inl hnonneg) (by rw [hplace]; rfl))
  rw [System.acceptorHandleRead, if_pos ⟨hnonneg, hfree⟩]

/-- What a step is for the server. -/
def respond (mem : Memory) (t : Acceptor) (s : System) : Action → Res System
  | .proceed _ =>
      match t.place with
      | .accepted connFd =>
          if t.newConnectionCallback then s.acceptorHandleRead mem .base (some connFd) else .ok s
      | .destroying => .ok { s with fds := Function.update s.fds t.acceptFd none }
      | _ => .ok s
  | .openFd =>
      match Handles.lowest t.limit t.fds with
      | some fd => s.step mem (.openFd fd)
      | none => .ok s
  -- the user does, or the destructor of a connection
  | .closeFd fd => .ok { s with fds := Function.update s.fds fd none }
  | .arrive _ | .handleRead _ | .destroy => .ok s

/-- The server does what the step asks of it, or `newConnection` itself stops. -/
def Answers (mem : Memory) (t t' : Acceptor) (s : System) (a : Action) : Prop :=
  (∃ s', t.respond mem s a = .ok s' ∧ t'.Agrees s') ∨
    ∃ fd e, t.place = .accepted fd ∧ s.newConnection mem .base fd = .error e ∧ t.respond mem s a = .error e

lemma Agrees.proceed (h : t.Agrees s) (hkept : t.Kept) {failure : Option Errno}
    (hok : t.proceed failure = .ok t') : t.Answers mem t' s (.proceed failure) := by
  cases proceeds_of_ok hok with
  | handOver connFd hplace hcallback =>
      obtain ⟨n, hn⟩ := (hkept.accepted connFd).mpr ⟨hkept.connFd connFd hplace, by rw [hplace]; rfl⟩
      have hrespond : t.respond mem s (.proceed failure) = s.newConnection mem .base connFd := by
        rw [respond, hplace]
        dsimp only
        rw [if_pos hcallback, hkept.accepts h hplace]
      rw [Answers, hrespond, handOver, hn]
      cases hnew : s.newConnection mem .base connFd with
      | error e => exact Or.inr ⟨connFd, e, hplace, hnew, rfl⟩
      | ok s' => exact Or.inl ⟨s', rfl, h.of_update rfl (System.newConnection_fds hnew) rfl⟩
  | refuse connFd hplace hcallback =>
      have htold := hkept.told_connFd (Or.inl (hkept.connFd connFd hplace)) (by rw [hplace]; rfl)
      rw [Answers, respond, hplace, hcallback]
      exact Or.inl ⟨s, rfl, h.of_own rfl htold rfl⟩
  | closeIdle hplace =>
      rw [Answers, respond, hplace]
      exact Or.inl ⟨s, rfl, h.of_own rfl (hkept.told_idleFd (by rw [hplace]; trivial)) rfl⟩
  | acceptFails hplace =>
      rw [Answers, respond, hplace]
      exact Or.inl ⟨s, rfl, h.of_eq rfl⟩
  | acceptIdle fd n backlog hplace hnonneg hlt hfree =>
      rw [Answers, respond, hplace]
      exact Or.inl ⟨s, rfl, h.of_own rfl (by rw [hfree]; rfl) rfl⟩
  | closeAccepted hplace =>
      have htold := hkept.told_connFd hkept.idleFd (by rw [hplace]; rfl)
      rw [Answers, respond, hplace]
      exact Or.inl ⟨s, rfl, h.of_own rfl htold rfl⟩
  | openFails errno hplace =>
      rw [Answers, respond, hplace]
      exact Or.inl ⟨s, rfl, h.of_eq rfl⟩
  | openIdle fd hplace hnonneg hlt hfree =>
      rw [Answers, respond, hplace]
      exact Or.inl ⟨s, rfl, h.of_own rfl (by rw [hfree]; rfl) rfl⟩
  | closeSocket hplace =>
      rw [Answers, respond, hplace]
      exact Or.inl ⟨_, rfl, h.of_update rfl rfl rfl⟩

/-- **Every step**, of the acceptor or of the others. -/
lemma Agrees.step (h : t.Agrees s) (hkept : t.Kept) (hok : t.step a = .ok t') : t.Answers mem t' s a := by
  cases a with
  | arrive n =>
      rw [← Except.ok.inj hok]
      exact Or.inl ⟨s, rfl, h.of_eq rfl⟩
  | handleRead failure =>
      rw [Acceptor.step, guard_eq_ok, Except.ok.injEq] at hok
      rw [← hok.2]
      rcases t.handleRead_spec failure with heq | ⟨heq, -⟩ | ⟨fd, n, backlog, -, -, hfree, -, heq⟩
      · rw [heq]
        exact Or.inl ⟨s, rfl, h⟩
      · rw [heq]
        exact Or.inl ⟨s, rfl, h.of_eq rfl⟩
      · rw [heq]
        exact Or.inl ⟨s, rfl, h.of_own rfl (by rw [hfree]; rfl) rfl⟩
  | proceed failure => exact h.proceed hkept hok
  | destroy =>
      rw [Acceptor.step, guard_eq_ok, Except.ok.injEq] at hok
      rw [← hok.2]
      exact Or.inl ⟨s, rfl, h.of_own rfl (hkept.told_idleFd (by rw [hok.1]; trivial)) rfl⟩
  | openFd =>
      rw [← Except.ok.inj hok, Answers, respond]
      cases hlowest : Handles.lowest t.limit t.fds with
      | none =>
          rw [openFd_full hlowest]
          exact Or.inl ⟨s, rfl, h⟩
      | some fd =>
          obtain ⟨hnonneg, -, hfree⟩ := Handles.lowest_eq_some hlowest
          have hnone := h.free (by rw [hfree]; rfl)
          refine Or.inl ⟨_, if_pos ⟨hnonneg, hnone⟩, ?_⟩
          rw [Acceptor.openFd, hlowest]
          exact h.of_update rfl rfl rfl
  | closeFd fd =>
      rw [(closeFd_ok hok).2]
      exact Or.inl ⟨_, rfl, h.of_update rfl rfl rfl⟩

/-- The acceptor beside the server, in a process with the descriptors `fds`.  Between two steps of the acceptor the
server may do whatever leaves the table of descriptors as it is. -/
inductive Beside (mem : Memory) (limit : ℕ) (fds : ℤ → Option Descriptor) : Acceptor → System → Prop
  | start {t : Acceptor} {s : System} {callback : Bool} {failure failure' : Option Errno}
      (hcreate : create limit fds callback failure failure' = some t) (hagrees : t.Agrees s) : Beside mem limit fds t s
  | server {t : Acceptor} {s s' : System} (h : Beside mem limit fds t s) (hfds : s'.fds = s.fds) :
      Beside mem limit fds t s'
  | step {t t' : Acceptor} {s s' : System} {a : Action} (h : Beside mem limit fds t s) (hok : t.step a = .ok t')
      (hrespond : t.respond mem s a = .ok s') : Beside mem limit fds t' s'

lemma Beside.agrees {limit : ℕ} {fds : ℤ → Option Descriptor} (hothers : Others limit fds)
    (h : Beside mem limit fds t s) : t.Kept ∧ t.Agrees s := by
  induction h with
  | start hcreate hagrees => exact ⟨(create_kept hothers hcreate).1, hagrees⟩
  | server _ hfds ih => exact ⟨ih.1, fun fd => by rw [hfds, ih.2 fd]⟩
  | @step t t' s s' a _ hok hrespond ih =>
      refine ⟨ih.1.step hok, ?_⟩
      have hanswers : t.Answers mem t' s _ := ih.2.step ih.1 hok
      rcases hanswers with ⟨s₁, hrespond', hagrees⟩ | ⟨fd, e, -, -, herror⟩
      · rw [hrespond, Except.ok.injEq] at hrespond'
        rwa [hrespond']
      · simp [hrespond] at herror

/-- **The server beside the acceptor.**  In every run of the two the server knows of all descriptors that are open, but
for those the acceptor keeps to itself.  Whatever step comes next, the server can do what it asks for: the descriptor
of a new connection, and one that somebody opens, is one of which the server does not know; only `newConnection`
itself may stop. -/
theorem beside_agrees {limit : ℕ} {fds : ℤ → Option Descriptor} (hothers : Others limit fds)
    (h : Beside mem limit fds t s) :
    (∀ fd, s.fds fd = none ↔ t.fds fd = none ∨ t.fds fd = some .idle ∨ ∃ n, t.fds fd = some (.accepted n)) ∧
      ∀ a t', t.step a = .ok t' → (∃ s', t.respond mem s a = .ok s') ∨
        ∃ fd e, t.place = .accepted fd ∧ s.newConnection mem .base fd = .error e ∧ t.respond mem s a = .error e := by
  obtain ⟨hkept, hagrees⟩ := h.agrees hothers
  refine ⟨fun fd => ?_, fun a t' hok => ?_⟩
  · have hfd := hagrees fd
    rw [← Option.isNone_iff_eq_none, ← Option.not_isSome, hfd]
    cases hd : t.fds fd with
    | none => simp [told]
    | some d => cases d <;> simp [told]
  · rcases hagrees.step hkept hok with ⟨s', hrespond, -⟩ | herror
    · exact Or.inl ⟨s', hrespond⟩
    · exact Or.inr herror

/-- The acceptor has the descriptor 6, of which the server does not know. -/
theorem beside_agrees_arrival :
    ∃ t s, Beside System.oneThread.mem 7 busy t s ∧ t.place = .accepted 6 ∧
      (s.fds 6 = none ↔ t.fds 6 = none ∨ t.fds 6 = some .idle ∨ ∃ n, t.fds 6 = some (.accepted n)) := by
  have hrun : ((create 7 busy true none none).map fun s₀ =>
      (Machine.run step s₀ [.arrive 1, .handleRead none]).map fun t => t.place) = some (.ok (.accepted 6)) := by
    decide +kernel
  obtain ⟨s₀, t, hcreate, hrun, hplace⟩ := created_of_map hrun
  have hagrees : s₀.Agrees { System.oneThread.start with
      fds := fun fd => if told (s₀.fds fd) = true then some .library else none } := by
    intro fd
    cases htold : told (s₀.fds fd) <;> simp [htold]
  have harrive : Beside System.oneThread.mem 7 busy { s₀ with backlog := s₀.backlog ++ [1] } _ :=
    .step (.start hcreate hagrees) (a := .arrive 1) rfl rfl
  have hread : Machine.run step { s₀ with backlog := s₀.backlog ++ [1] } [.handleRead none] = .ok t := hrun
  cases hstep : step { s₀ with backlog := s₀.backlog ++ [1] } (.handleRead none) with
  | error e => simp [Machine.run, hstep] at hread
  | ok t' =>
      rw [Machine.run_cons_ok hstep, Machine.run_nil, Except.ok.injEq] at hread
      have hbeside := Beside.step harrive hstep rfl
      obtain ⟨hfds, -⟩ := beside_agrees (others_busy (by decide)) hbeside
      exact ⟨t', _, hbeside, hread ▸ hplace, hfds 6⟩

end Acceptor

end Seenet
