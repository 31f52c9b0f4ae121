import Seenet.Acceptor.Descriptors
import Seenet.Lib.Fifo

/-!
# What becomes of a connection

* `inHand`, `settled` — the connection the acceptor has accepted, and the one it gives away or closes.
* **`fate_of_each`** — the connections are settled in the order they came, none twice, and none is lost.
-/

namespace Seenet

namespace Acceptor

variable {s s' : Acceptor} {a : Action}

/-- The connection that is behind a descriptor of the acceptor. -/
def connectionOf : Option Descriptor → List ℕ
  | some (.accepted n) => [n]
  | _ => []

/-- The connection the acceptor has accepted and not given away or closed yet. -/
def inHand (s : Acceptor) : List ℕ :=
  match s.place with
  | .accepted connFd => connectionOf (s.fds connFd)
  | .closeAccepted => connectionOf (s.fds s.idleFd)
  | _ => []

/-- The connection that comes to the listening socket in a step. -/
def arrival (_ : Acceptor) : Action → List ℕ
  | .arrive n => [n]
  | _ => []

/-- The connection that the acceptor gives away or closes in a step. -/
def settled (s : Acceptor) : Action → List ℕ
  | .proceed _ => s.inHand
  | _ => []

/-- The connections that have not been given away or closed yet. -/
def held (s : Acceptor) : List ℕ := s.inHand ++ s.backlog

lemma connectionOf_foreign {d : Option Descriptor} (h : d.all Descriptor.foreign = true) : connectionOf d = [] := by
  cases d with
  | none => rfl
  | some d => cases d <;> first | rfl | simp [Descriptor.foreign] at h

lemma connectionOf_eq_cons {d : Option Descriptor} {n : ℕ} (h : n ∈ connectionOf d) : d = some (.accepted n) := by
  rcases d with - | d
  · simp [connectionOf] at h
  · cases d <;> simp [connectionOf] at h
    rw [h]

/-- What the others do has no influence on the connection in hand. -/
lemma inHand_update {fd : ℤ} {d : Option Descriptor} (hold : (s.fds fd).all Descriptor.foreign = true)
    (hnew : d.all Descriptor.foreign = true) : inHand { s with fds := Function.update s.fds fd d } = s.inHand := by
  have hsame : ∀ fd', connectionOf (Function.update s.fds fd d fd') = connectionOf (s.fds fd') := by
    intro fd'
    by_cases heq : fd' = fd
    · rw [heq, Function.update_self, connectionOf_foreign hnew, connectionOf_foreign hold]
    · rw [Function.update_of_ne heq]
  simp only [inHand, hsame]

lemma handOver_backlog (s : Acceptor) (connFd : ℤ) : (s.handOver connFd).backlog = s.backlog := by
  rw [handOver]
  split
  · rfl
  · rfl

/-- The next system call of the acceptor. -/
lemma Kept.proceed_held (h : s.Kept) {failure : Option Errno} (hok : s.proceed failure = .ok s') :
    s.held = s.inHand ++ s'.held := by
  cases proceeds_of_ok hok with
  | handOver connFd hplace => simp [held, inHand, handOver_backlog]
  | refuse connFd hplace => simp [held, inHand, close]
  | acceptFails hplace => simp [held, inHand, hplace, h.lookup_neg, connectionOf]
  | acceptIdle fd n backlog hplace hnonneg hlt hfree hbacklog => simp [held, inHand, hplace, hbacklog, connectionOf]
  | openFails errno hplace => simp [held, inHand, hplace]
  | openIdle fd hplace => simp [held, inHand, hplace]
  | closeIdle hplace | closeAccepted hplace | closeSocket hplace => simp [held, inHand, hplace, close]

/-- **A step** takes a connection in at the back, or settles one at the front. -/
lemma Kept.step_held (h : s.Kept) (hok : s.step a = .ok s') : s.held ++ s.arrival a = s.settled a ++ s'.held := by
  cases a with
  | arrive n =>
      rw [← Except.ok.inj hok]
      exact List.append_assoc ..
  | handleRead failure =>
      rw [Acceptor.step, guard_eq_ok, Except.ok.injEq] at hok
      obtain ⟨hplace, rfl⟩ := hok
      rcases s.handleRead_spec failure with heq | ⟨heq, -⟩ | ⟨fd, n, backlog, -, -, -, hbacklog, heq⟩
      · simp [heq, arrival, settled]
      · simp [heq, held, inHand, hplace, arrival, settled]
      · simp [heq, held, inHand, hplace, hbacklog, connectionOf, arrival, settled]
  | proceed failure =>
      simpa only [arrival, settled, List.append_nil] using h.proceed_held hok
  | destroy =>
      rw [Acceptor.step, guard_eq_ok, Except.ok.injEq] at hok
      simp [← hok.2, held, inHand, hok.1, close, arrival, settled]
  | openFd =>
      rw [← Except.ok.inj hok]
      simp only [arrival, settled, List.append_nil, List.nil_append]
      rcases s.openFd_spec .other none with ⟨errno, heq⟩ | ⟨fd, -, -, hfree, heq⟩
      · rw [heq]
      · rw [heq, held, held, inHand_update (by rw [hfree]; rfl) rfl]
  | closeFd fd =>
      obtain ⟨hany, rfl⟩ := closeFd_ok hok
      obtain ⟨d, hd, hforeign⟩ := (Option.any_eq_true _ _).mp hany
      simp only [arrival, settled, List.append_nil, List.nil_append]
      rw [held, held, inHand_update (by simpa [hd] using hforeign) rfl]

/-- What the acceptor does with the connection in hand. -/
lemma proceed_settles {failure : Option Errno} {n : ℕ} (hn : n ∈ s.inHand)
    (hok : s.proceed failure = .ok s') : ∃ fd, s.fds fd = some (.accepted n) ∧
      (s.newConnectionCallback = true ∧ s.place = .accepted fd ∧ s'.fds fd = some (.handed n) ∨
        (s.newConnectionCallback = false ∨ s.place = .closeAccepted) ∧ s'.fds fd = none ∧
          s'.closed = s.closed ++ [(fd, some (.accepted n))]) := by
  rw [inHand] at hn
  cases proceeds_of_ok hok with
  | handOver connFd hplace hcallback =>
      simp only [hplace] at hn
      have hfd := connectionOf_eq_cons hn
      refine ⟨connFd, hfd, Or.inl ⟨hcallback, hplace, ?_⟩⟩
      rw [handOver, hfd]
      exact Function.update_self ..
  | refuse connFd hplace hcallback =>
      simp only [hplace] at hn
      have hfd := connectionOf_eq_cons hn
      exact ⟨connFd, hfd, Or.inr ⟨Or.inl hcallback, by simp [close], by simp [close, hfd]⟩⟩
  | closeAccepted hplace =>
      simp only [hplace] at hn
      have hfd := connectionOf_eq_cons hn
      exact ⟨s.idleFd, hfd, Or.inr ⟨Or.inr hplace, by simp [close], by simp [close, hfd]⟩⟩
  | closeIdle hplace | acceptFails hplace | acceptIdle _ _ _ hplace | openFails _ hplace | openIdle _ hplace
  | closeSocket hplace => simp [hplace] at hn

/-- **The fate of each connection.**  In every run the connections that have come to the listening socket are the
ones the acceptor has settled, the one it has in hand and those that still wait, in the order they came.  A connection
is settled by giving its descriptor to the callback; or by closing it, but this only if there is no callback, or if
`accept` has failed with `EMFILE` before. -/
theorem fate_of_each {limit : ℕ} {fds : ℤ → Option Descriptor} {callback : Bool} {failure failure' : Option Errno}
    {s₀ t : Acceptor} {as : List Action} (hothers : Others limit fds)
    (hcreate : create limit fds callback failure failure' = some s₀) (hrun : Machine.run step s₀ as = .ok t) :
    Machine.collect arrival (Machine.steps step s₀ as)
        = Machine.collect settled (Machine.steps step s₀ as) ++ t.inHand ++ t.backlog ∧
      ∀ p ∈ Machine.steps step s₀ as, ∀ n ∈ settled p.1 p.2, ∃ fd s', p.1.step p.2 = .ok s' ∧
        p.1.fds fd = some (.accepted n) ∧
        (p.1.newConnectionCallback = true ∧ p.1.place = .accepted fd ∧ s'.fds fd = some (.handed n) ∨
          (p.1.newConnectionCallback = false ∨ p.1.place = .closeAccepted) ∧ s'.fds fd = none ∧
            s'.closed = p.1.closed ++ [(fd, some (.accepted n))]) := by
  obtain ⟨hkept₀, -, hplace₀, -, hbacklog₀⟩ := create_kept hothers hcreate
  constructor
  · have hfifo := Machine.run_fifo held arrival settled (I := Kept)
      (fun s a s' h hok => ⟨h.step hok, h.step_held hok⟩) hkept₀ hrun
    rw [List.append_assoc]
    simpa [held, inHand, hplace₀, hbacklog₀] using hfifo
  · intro p hp n hn
    obtain ⟨s', hok⟩ := Machine.ok_of_mem_steps hp
    cases hp2 : p.2 with
    | proceed failure =>
        rw [hp2] at hn hok
        obtain ⟨fd, hfd, hfate⟩ := proceed_settles hn hok
        exact ⟨fd, s', hok, hfd, hfate⟩
    | arrive n' | handleRead failure | destroy | openFd | closeFd fd => simp [hp2, settled] at hn

/-- Both have been settled. -/
theorem fate_of_each_fullOnce :
    ∃ s₀ t, create 7 busy true none none = some s₀ ∧ Machine.run step s₀ fullOnce = .ok t ∧
      Machine.collect arrival (Machine.steps step s₀ fullOnce)
        = Machine.collect settled (Machine.steps step s₀ fullOnce) := by
  have hrun : ((create 7 busy true none none).map fun s₀ =>
      (Machine.run step s₀ fullOnce).map fun t => (t.inHand, t.backlog)) = some (.ok ([], [])) := by
    decide +kernel
  obtain ⟨s₀, t, hcreate, hrun, hobs⟩ := created_of_map hrun
  rw [Prod.mk.injEq] at hobs
  obtain ⟨hfifo, -⟩ := fate_of_each (others_busy (by decide)) hcreate hrun
  rw [hobs.1, hobs.2, List.append_nil, List.append_nil] at hfifo
  exact ⟨s₀, t, hcreate, hrun, hfifo⟩

end Acceptor

end Seenet
