import Seenet.Kernel
import Seenet.Lib.Handles

/-!
# `Acceptor`

In each call of `handleRead` the acceptor takes one of the connections that wait at the listening socket, and gives
its descriptor away.  When the process has no descriptor left, `accept` takes none.  For this the acceptor keeps one
that is open on `/dev/null` (`m_idleFd`): it closes it, takes the connection, closes that, and opens `/dev/null` again.

The system calls are steps of their own.  Between any two of them the other threads may open and close descriptors,
and take the one that the acceptor has just given up.

* `openFd`, `close`, `accept` — the system calls.
* `create`, `handleRead`, `proceed` — the constructor; `handleRead` with its first system call; and the next one, in
  `handleRead` or in the destructor.
* `step` — a step of the process, of the acceptor or of somebody else.
* `openFd_spec`, `accept_spec` — what can come of a call.
-/

namespace Seenet

def EBADF : Errno := 9
def EMFILE : Errno := 24

/-- What a descriptor of the process is. -/
inductive Descriptor
  /-- the listening socket, `m_acceptSocket` -/
  | acceptSocket
  /-- `/dev/null`, opened by the acceptor -/
  | idle
  /-- the connection `n`, which the acceptor has accepted -/
  | accepted (n : ℕ)
  /-- the connection `n`, of which somebody else has been given the descriptor -/
  | handed (n : ℕ)
  /-- what somebody else has opened -/
  | other
  deriving DecidableEq, Repr

/-- The acceptor does not have to do with it any more. -/
def Descriptor.foreign : Descriptor → Bool
  | handed _ | other => true
  | _ => false

/-- Where the acceptor is. -/
inductive Place
  /-- not in `handleRead` -/
  | outside
  /-- `accept` has returned `connFd` -/
  | accepted (connFd : ℤ)
  /-- before `::close(m_idleFd)`, since `accept` has failed with `EMFILE` -/
  | closeIdle
  /-- before `m_idleFd = ::accept(..)` -/
  | acceptIdle
  /-- before the second `::close(m_idleFd)` -/
  | closeAccepted
  /-- before `m_idleFd = ::open(..)` -/
  | openIdle
  /-- in the destructor, before the one of `m_acceptSocket` -/
  | destroying
  | destroyed
  deriving DecidableEq, Repr

namespace Place

/-- `m_idleFd` is `/dev/null`, unless that could not be opened. -/
def HasIdle : Place → Prop
  | outside | accepted _ | closeIdle => True
  | _ => False

/-- The acceptor has a connection with that descriptor. -/
def InHand (idleFd fd : ℤ) : Place → Prop
  | accepted connFd => fd = connFd
  | closeAccepted => fd = idleFd
  | _ => False

/-- `m_idleFd` has been closed, and is not open again. -/
def Gap : Place → Prop
  | acceptIdle | closeAccepted | openIdle => True
  | _ => False

end Place

/-- The acceptor, with the descriptors of the process and the connections that wait at the listening socket. -/
structure Acceptor where
  /-- descriptors are below the limit -/
  limit : ℕ
  fds : ℤ → Option Descriptor
  backlog : List ℕ
  /-- the descriptor of `m_acceptSocket` -/
  acceptFd : ℤ
  idleFd : ℤ
  /-- `m_newConnectionCallback` is set -/
  newConnectionCallback : Bool
  place : Place
  /-- the descriptors the acceptor has closed, and what they were -/
  closed : List (ℤ × Option Descriptor)

namespace Acceptor

/-! ## System calls -/

/-- `open` or `socket`: the lowest descriptor that is free, or an error. -/
def openFd (s : Acceptor) (d : Descriptor) (failure : Option Errno) : Except Errno ℤ × Acceptor :=
  match Handles.lowest s.limit s.fds with
  | none => (.error EMFILE, s)
  | some fd =>
      match failure with
      | some errno => (.error errno, s)
      | none => (.ok fd, { s with fds := Function.update s.fds fd (some d) })

/-- `close` -/
def close (s : Acceptor) (fd : ℤ) : Acceptor :=
  { s with fds := Function.update s.fds fd none, closed := s.closed ++ [(fd, s.fds fd)] }

/-- `accept` at the listening socket.  The kernel looks for a free descriptor first. -/
def accept (s : Acceptor) (failure : Option Errno) : Except Errno ℤ × Acceptor :=
  if s.fds s.acceptFd ≠ some .acceptSocket then (.error EBADF, s)
  else
    match Handles.lowest s.limit s.fds with
    | none => (.error EMFILE, s)
    | some fd =>
        match failure with
        | some errno => (.error errno, s)
        | none =>
            match s.backlog with
            | [] => (.error EAGAIN, s)
            | n :: backlog =>
                (.ok fd, { s with fds := Function.update s.fds fd (some (.accepted n)), backlog := backlog })

/-! ## The acceptor -/

/-- `Acceptor::Acceptor`, in a process with the descriptors `fds`; `listen` has been called.  If `/dev/null` cannot be
opened, the assertion fails. -/
def create (limit : ℕ) (fds : ℤ → Option Descriptor) (newConnectionCallback : Bool) (failure failure' : Option Errno) :
    Option Acceptor :=
  match openFd ⟨limit, fds, [], -1, -1, newConnectionCallback, .outside, []⟩ .acceptSocket failure with
  | (acceptFd, s) =>
      let s := { s with acceptFd := acceptFd.toOption.getD (-1) }
      match s.openFd .idle failure' with
      | (.ok idleFd, s) => some { s with idleFd := idleFd }
      | (.error _, _) => none

/-- `handleRead`, with its first system call. -/
def handleRead (s : Acceptor) (failure : Option Errno) : Acceptor :=
  match s.accept failure with
  | (.ok connFd, s) => { s with place := .accepted connFd }
  | (.error errno, s) => if errno = EMFILE then { s with place := .closeIdle } else s

/-- `m_newConnectionCallback` is given a descriptor. -/
def handOver (s : Acceptor) (connFd : ℤ) : Acceptor :=
  match s.fds connFd with
  | some (.accepted n) => { s with fds := Function.update s.fds connFd (some (.handed n)) }
  | _ => s

/-- The next system call of `handleRead` or of the destructor, or the call of the callback. -/
def proceed (s : Acceptor) (failure : Option Errno) : Res Acceptor :=
  match s.place with
  | .outside | .destroyed => .error .disabled
  | .accepted connFd =>
      let s := if s.newConnectionCallback then s.handOver connFd else s.close connFd
      .ok { s with place := .outside }
  | .closeIdle => .ok { s.close s.idleFd with place := .acceptIdle }
  | .acceptIdle =>
      match s.accept failure with
      | (.ok fd, s) => .ok { s with idleFd := fd, place := .closeAccepted }
      | (.error _, s) => .ok { s with idleFd := -1, place := .closeAccepted }
  | .closeAccepted => .ok { s.close s.idleFd with place := .openIdle }
  | .openIdle =>
      match s.openFd .idle failure with
      | (.ok fd, s) => .ok { s with idleFd := fd, place := .outside }
      | (.error _, s) => .ok { s with idleFd := -1, place := .outside }
  | .destroying => .ok { s.close s.acceptFd with place := .destroyed }

inductive Action
  /-- a connection comes to the listening socket -/
  | arrive (n : ℕ)
  | handleRead (failure : Option Errno)
  | proceed (failure : Option Errno)
  /-- `Acceptor::~Acceptor` -/
  | destroy
  /-- another thread opens and closes descriptors -/
  | openFd
  | closeFd (fd : ℤ)
  deriving DecidableEq

def step (s : Acceptor) : Action → Res Acceptor
  | .arrive n => .ok { s with backlog := s.backlog ++ [n] }
  | .handleRead failure => if s.place = .outside then .ok (s.handleRead failure) else .error .disabled
  | .proceed failure => s.proceed failure
  | .destroy => if s.place = .outside then .ok { s.close s.idleFd with place := .destroying } else .error .disabled
  | .openFd => .ok (s.openFd .other none).2
  | .closeFd fd =>
      if (s.fds fd).any Descriptor.foreign then .ok { s with fds := Function.update s.fds fd none }
      else .error .disabled

variable {s s' : Acceptor} {a : Action}

/-! ## What the calls do -/

/-- `open` fails, or it takes a descriptor that was free. -/
lemma openFd_spec (s : Acceptor) (d : Descriptor) (failure : Option Errno) :
    (∃ errno, s.openFd d failure = (.error errno, s)) ∨
      ∃ fd : ℤ, 0 ≤ fd ∧ fd < s.limit ∧ s.fds fd = none ∧
        s.openFd d failure = (.ok fd, { s with fds := Function.update s.fds fd (some d) }) := by
  rw [openFd]
  cases hlowest : Handles.lowest s.limit s.fds with
  | none => exact Or.inl ⟨EMFILE, rfl⟩
  | some fd =>
      obtain ⟨hnonneg, hlt, hfree⟩ := Handles.lowest_eq_some hlowest
      cases failure with
      | some errno => exact Or.inl ⟨errno, rfl⟩
      | none => exact Or.inr ⟨fd, hnonneg, hlt, hfree, rfl⟩

/-- `accept` fails, or it takes the first connection that waits, with a descriptor that was free. -/
lemma accept_spec (s : Acceptor) (failure : Option Errno) :
    (∃ errno, s.accept failure = (.error errno, s)) ∨
      ∃ (fd : ℤ) (n : ℕ) (backlog : List ℕ), 0 ≤ fd ∧ fd < s.limit ∧ s.fds fd = none ∧ s.backlog = n :: backlog ∧
        s.accept failure
          = (.ok fd, { s with fds := Function.update s.fds fd (some (.accepted n)), backlog := backlog }) := by
  rw [accept]
  split_ifs
  · exact Or.inl ⟨EBADF, rfl⟩
  · cases hlowest : Handles.lowest s.limit s.fds with
    | none => exact Or.inl ⟨EMFILE, rfl⟩
    | some fd =>
        obtain ⟨hnonneg, hlt, hfree⟩ := Handles.lowest_eq_some hlowest
        cases failure with
        | some errno => exact Or.inl ⟨errno, rfl⟩
        | none =>
            cases hbacklog : s.backlog with
            | nil => exact Or.inl ⟨EAGAIN, rfl⟩
            | cons n backlog => exact Or.inr ⟨fd, n, backlog, hnonneg, hlt, hfree, rfl, rfl⟩

/-- **`handleRead`** up to its first system call. -/
lemma handleRead_spec (s : Acceptor) (failure : Option Errno) :
    s.handleRead failure = s ∨
      s.handleRead failure = { s with place := .closeIdle } ∧ s.accept failure = (.error EMFILE, s) ∨
      ∃ (fd : ℤ) (n : ℕ) (backlog : List ℕ), 0 ≤ fd ∧ fd < s.limit ∧ s.fds fd = none ∧ s.backlog = n :: backlog ∧
        s.handleRead failure = { s with
          fds := Function.update s.fds fd (some (.accepted n)), backlog := backlog, place := .accepted fd } := by
  rcases s.accept_spec failure with ⟨errno, heq⟩ | ⟨fd, n, backlog, hnonneg, hlt, hfree, hbacklog, heq⟩
  · rw [handleRead, heq]
    dsimp only
    split_ifs with herrno
    · exact Or.inr (Or.inl ⟨rfl, by rw [herrno]⟩)
    · exact Or.inl rfl
  · rw [handleRead, heq]
    exact Or.inr (Or.inr ⟨fd, n, backlog, hnonneg, hlt, hfree, hbacklog, rfl⟩)

/-- What the next system call of the acceptor, or the call of the callback, can do. -/
inductive Proceeds (s : Acceptor) (failure : Option Errno) : Acceptor → Prop
  | handOver (connFd : ℤ) (hplace : s.place = .accepted connFd) (hcallback : s.newConnectionCallback = true) :
      Proceeds s failure { s.handOver connFd with place := .outside }
  | refuse (connFd : ℤ) (hplace : s.place = .accepted connFd) (hcallback : s.newConnectionCallback = false) :
      Proceeds s failure { s.close connFd with place := .outside }
  | closeIdle (hplace : s.place = .closeIdle) : Proceeds s failure { s.close s.idleFd with place := .acceptIdle }
  | acceptFails (hplace : s.place = .acceptIdle) :
      Proceeds s failure { s with idleFd := -1, place := .closeAccepted }
  | acceptIdle (fd : ℤ) (n : ℕ) (backlog : List ℕ) (hplace : s.place = .acceptIdle) (hnonneg : 0 ≤ fd)
      (hlt : fd < s.limit) (hfree : s.fds fd = none) (hbacklog : s.backlog = n :: backlog) :
      Proceeds s failure { s with
        fds := Function.update s.fds fd (some (.accepted n)), backlog := backlog, idleFd := fd
        place := .closeAccepted }
  | closeAccepted (hplace : s.place = .closeAccepted) :
      Proceeds s failure { s.close s.idleFd with place := .openIdle }
  | openFails (errno : Errno) (hplace : s.place = .openIdle) (hfails : s.openFd .idle failure = (.error errno, s)) :
      Proceeds s failure { s with idleFd := -1, place := .outside }
  | openIdle (fd : ℤ) (hplace : s.place = .openIdle) (hnonneg : 0 ≤ fd) (hlt : fd < s.limit)
      (hfree : s.fds fd = none) :
      Proceeds s failure { s with fds := Function.update s.fds fd (some .idle), idleFd := fd, place := .outside }
  | closeSocket (hplace : s.place = .destroying) :
      Proceeds s failure { s.close s.acceptFd with place := .destroyed }

/-- **The next system call.** -/
lemma proceeds_of_ok {failure : Option Errno} (hok : s.proceed failure = .ok s') : s.Proceeds failure s' := by
  rw [proceed] at hok
  cases hplace : s.place with
  | outside | destroyed => simp [hplace] at hok
  | accepted connFd =>
      simp only [hplace, Except.ok.injEq] at hok
      subst hok
      cases hcallback : s.newConnectionCallback with
      | true => exact .handOver connFd hplace hcallback
      | false => exact .refuse connFd hplace hcallback
  | closeIdle =>
      simp only [hplace, Except.ok.injEq] at hok
      exact hok ▸ .closeIdle hplace
  | acceptIdle =>
      rcases s.accept_spec failure with ⟨errno, heq⟩ | ⟨fd, n, backlog, hnonneg, hlt, hfree, hbacklog, heq⟩
      · simp only [hplace, heq, Except.ok.injEq] at hok
        exact hok ▸ .acceptFails hplace
      · simp only [hplace, heq, Except.ok.injEq] at hok
        exact hok ▸ .acceptIdle fd n backlog hplace hnonneg hlt hfree hbacklog
  | closeAccepted =>
      simp only [hplace, Except.ok.injEq] at hok
      exact hok ▸ .closeAccepted hplace
  | openIdle =>
      rcases s.openFd_spec .idle failure with ⟨errno, heq⟩ | ⟨fd, hnonneg, hlt, hfree, heq⟩
      · simp only [hplace, heq, Except.ok.injEq] at hok
        exact hok ▸ .openFails errno hplace heq
      · simp only [hplace, heq, Except.ok.injEq] at hok
        exact hok ▸ .openIdle fd hplace hnonneg hlt hfree
  | destroying =>
      simp only [hplace, Except.ok.injEq] at hok
      exact hok ▸ .closeSocket hplace

lemma openFd_full (hfull : Handles.lowest s.limit s.fds = none) (d : Descriptor) (failure : Option Errno) :
    s.openFd d failure = (.error EMFILE, s) := by
  rw [openFd, hfull]

/-- `EMFILE` says that no descriptor is free. -/
lemma accept_emfile {failure : Option Errno} (hfailure : failure ≠ some EMFILE)
    (h : s.accept failure = (.error EMFILE, s)) : Handles.lowest s.limit s.fds = none := by
  rw [accept] at h
  split_ifs at h
  · simp [EBADF, EMFILE] at h
  · cases hlowest : Handles.lowest s.limit s.fds with
    | none => rfl
    | some fd =>
        cases failure with
        | some errno =>
            simp only [hlowest, Prod.mk.injEq, Except.error.injEq, and_true] at h
            exact absurd (by rw [h]) hfailure
        | none => cases hbacklog : s.backlog <;> simp [hlowest, hbacklog, EAGAIN, EMFILE] at h

/-- The two calls of the constructor. -/
lemma create_spec {limit : ℕ} {fds : ℤ → Option Descriptor} {callback : Bool} {failure failure' : Option Errno}
    (hcreate : create limit fds callback failure failure' = some s) :
    ∃ acceptFd s₁ idleFd s₂,
      openFd ⟨limit, fds, [], -1, -1, callback, .outside, []⟩ .acceptSocket failure = (acceptFd, s₁) ∧
      openFd { s₁ with acceptFd := acceptFd.toOption.getD (-1) } .idle failure' = (.ok idleFd, s₂) ∧
      s = { s₂ with idleFd := idleFd } := by
  cases hsocket : openFd ⟨limit, fds, [], -1, -1, callback, .outside, []⟩ .acceptSocket failure with
  | mk acceptFd s₁ =>
      rw [create, hsocket] at hcreate
      dsimp only at hcreate
      cases hidle : openFd { s₁ with acceptFd := acceptFd.toOption.getD (-1) } .idle failure' with
      | mk result s₂ =>
          rw [hidle] at hcreate
          cases result with
          | error errno => simp at hcreate
          | ok idleFd => exact ⟨acceptFd, s₁, idleFd, s₂, rfl, hidle, (Option.some.inj hcreate).symm⟩

/-- What somebody else closes. -/
lemma closeFd_ok {fd : ℤ} (hok : s.step (.closeFd fd) = .ok s') :
    (s.fds fd).any Descriptor.foreign = true ∧ s' = { s with fds := Function.update s.fds fd none } := by
  rw [Acceptor.step, guard_eq_ok, Except.ok.injEq] at hok
  exact ⟨hok.1, hok.2.symm⟩

end Acceptor

end Seenet
