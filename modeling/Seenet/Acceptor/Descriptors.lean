import Seenet.Acceptor.Basic
import Seenet.Lib.Machine

/-!
# Whose the descriptors are

A descriptor that is closed twice is closed the second time for somebody else, who has opened it in between.

* `Kept` — the invariant: which descriptors are the acceptor's, wherever it is; `Kept.step`, `create_kept`.
* `Spares` — what a step of the acceptor is to the others.
* **`closes_own`** — no descriptor is closed that is somebody else's, and none is lost.
-/

namespace Seenet

namespace Acceptor

variable {s s' : Acceptor} {a : Action}

/-! ## The invariant -/

/-- Which descriptors are the acceptor's. -/
structure Kept (s : Acceptor) : Prop where
  range : ∀ fd d, s.fds fd = some d → 0 ≤ fd ∧ fd < s.limit
  acceptFd : 0 ≤ s.acceptFd ∨ s.acceptFd = -1
  idleFd : 0 ≤ s.idleFd ∨ s.idleFd = -1
  connFd : ∀ connFd, s.place = .accepted connFd → 0 ≤ connFd
  acceptSocket : ∀ fd, s.fds fd = some .acceptSocket ↔ 0 ≤ fd ∧ fd = s.acceptFd ∧ s.place ≠ .destroyed
  idle : ∀ fd, s.fds fd = some .idle ↔ 0 ≤ fd ∧ fd = s.idleFd ∧ s.place.HasIdle
  accepted : ∀ fd, (∃ n, s.fds fd = some (.accepted n)) ↔ 0 ≤ fd ∧ s.place.InHand s.idleFd fd

/-- The acceptor's descriptors are as they were, and so is what it knows of them. -/
lemma Kept.of_own (h : s.Kept) (hlimit : s'.limit = s.limit)
    (hrange : ∀ fd d, s'.fds fd = some d → 0 ≤ fd ∧ fd < s.limit)
    (hown : ∀ fd d, d.foreign = false → (s'.fds fd = some d ↔ s.fds fd = some d))
    (hacceptFd : s'.acceptFd = s.acceptFd) (hidleFd : s'.idleFd = s.idleFd) (hplace : s'.place = s.place) :
    s'.Kept := by
  refine ⟨fun fd d hd => hlimit ▸ hrange fd d hd, hacceptFd ▸ h.acceptFd, hidleFd ▸ h.idleFd, hplace ▸ h.connFd,
    fun fd => ?_, fun fd => ?_, fun fd => ?_⟩
  · rw [hown fd _ rfl, h.acceptSocket, hacceptFd, hplace]
  · rw [hown fd _ rfl, h.idle, hidleFd, hplace]
  · have haccepted : (∃ n, s'.fds fd = some (.accepted n)) ↔ ∃ n, s.fds fd = some (.accepted n) :=
      exists_congr fun n => hown fd _ rfl
    rw [haccepted, h.accepted, hidleFd, hplace]

/-- A free descriptor is given to somebody else, or what is somebody else's changes. -/
lemma Kept.update_foreign (h : s.Kept) {fd : ℤ} {d : Option Descriptor}
    (hold : (s.fds fd).all Descriptor.foreign = true) (hnew : d.all Descriptor.foreign = true)
    (hrange : d ≠ none → 0 ≤ fd ∧ fd < s.limit) :
    Kept { s with fds := Function.update s.fds fd d } := by
  refine h.of_own rfl (fun fd' d' hd' => ?_) (fun fd' d' hd' => ?_) rfl rfl rfl
  all_goals by_cases heq : fd' = fd
  · subst heq
    exact hrange fun hnone => by simp [hnone] at hd'
  · simp only [Function.update_of_ne heq] at hd'
    exact h.range fd' d' hd'
  · subst heq
    simp only [Function.update_self]
    refine iff_of_false ?_ ?_
    · rintro rfl
      simp [hd'] at hnew
    · intro hsome
      simp [hsome, hd'] at hold
  · simp only [Function.update_of_ne heq]

/-- **A descriptor is closed or opened** by the acceptor, which goes on somewhere else: it is enough to look at the
descriptors one by one. -/
lemma Kept.own (h : s.Kept) {fd : ℤ} {d : Option Descriptor} {idleFd : ℤ} {place : Place}
    (hfds : s'.fds = Function.update s.fds fd d) (hlimit : s'.limit = s.limit) (hacceptFd : s'.acceptFd = s.acceptFd)
    (hidleFd : s'.idleFd = idleFd) (hplace : s'.place = place) (hrange : d ≠ none → 0 ≤ fd ∧ fd < s.limit)
    (hvalid : 0 ≤ idleFd ∨ idleFd = -1) (hconn : ∀ connFd, place = .accepted connFd → 0 ≤ connFd)
    (hself : (d = some .acceptSocket ↔ 0 ≤ fd ∧ fd = s.acceptFd ∧ place ≠ .destroyed) ∧
      (d = some .idle ↔ 0 ≤ fd ∧ fd = idleFd ∧ place.HasIdle) ∧
      ((∃ n, d = some (.accepted n)) ↔ 0 ≤ fd ∧ place.InHand idleFd fd))
    (hothers : ∀ fd' ≠ fd, 0 ≤ fd' → (fd' = s.acceptFd → (place = .destroyed ↔ s.place = .destroyed)) ∧
      (fd' = idleFd ∧ place.HasIdle ↔ fd' = s.idleFd ∧ s.place.HasIdle) ∧
      (place.InHand idleFd fd' ↔ s.place.InHand s.idleFd fd')) : s'.Kept := by
  have hupdate : ∀ fd' ≠ fd, s'.fds fd' = s.fds fd' := fun fd' hne => by rw [hfds, Function.update_of_ne hne]
  have hat : s'.fds fd = d := by rw [hfds, Function.update_self]
  refine ⟨fun fd' d' hd' => ?_, hacceptFd ▸ h.acceptFd, hidleFd ▸ hvalid, hplace ▸ hconn, fun fd' => ?_, fun fd' => ?_,
    fun fd' => ?_⟩
  all_goals by_cases heq : fd' = fd
  · subst heq
    rw [hlimit]
    exact hrange fun hnone => by simp [hat, hnone] at hd'
  · rw [hlimit]
    exact h.range fd' d' (hupdate fd' heq ▸ hd')
  · rw [heq, hat, hacceptFd, hplace]
    exact hself.1
  · rw [hupdate fd' heq, h.acceptSocket, hacceptFd, hplace]
    exact and_congr_right fun hnonneg => and_congr_right fun hfd => not_congr ((hothers fd' heq hnonneg).1 hfd).symm
  · rw [heq, hat, hidleFd, hplace]
    exact hself.2.1
  · rw [hupdate fd' heq, h.idle, hidleFd, hplace]
    exact and_congr_right fun hnonneg => (hothers fd' heq hnonneg).2.1.symm
  · rw [heq, hat, hidleFd, hplace]
    exact hself.2.2
  · rw [hupdate fd' heq, h.accepted, hidleFd, hplace]
    exact and_congr_right fun hnonneg => (hothers fd' heq hnonneg).2.2.symm

/-- The acceptor goes on somewhere else, and no descriptor has changed. -/
lemma Kept.goes (h : s.Kept) {idleFd : ℤ} {place : Place} (hvalid : 0 ≤ idleFd ∨ idleFd = -1)
    (hconn : ∀ connFd, place = .accepted connFd → 0 ≤ connFd) (hdestroyed : place = .destroyed ↔ s.place = .destroyed)
    (hidle : ∀ fd, 0 ≤ fd → (fd = idleFd ∧ place.HasIdle ↔ fd = s.idleFd ∧ s.place.HasIdle))
    (hhand : ∀ fd, 0 ≤ fd → (place.InHand idleFd fd ↔ s.place.InHand s.idleFd fd)) :
    Kept { s with idleFd := idleFd, place := place } := by
  refine ⟨h.range, h.acceptFd, hvalid, hconn, fun fd => ?_, fun fd => ?_, fun fd => ?_⟩
  · rw [h.acceptSocket, ne_eq, ne_eq, hdestroyed]
  · rw [h.idle]
    exact and_congr_right fun hnonneg => (hidle fd hnonneg).symm
  · rw [h.accepted]
    exact and_congr_right fun hnonneg => (hhand fd hnonneg).symm

/-- A free descriptor is none of the acceptor's. -/
lemma Kept.free (h : s.Kept) {fd : ℤ} (hnonneg : 0 ≤ fd) (hfree : s.fds fd = none) :
    ¬ (fd = s.acceptFd ∧ s.place ≠ .destroyed) ∧ ¬ (fd = s.idleFd ∧ s.place.HasIdle) ∧
      ¬ s.place.InHand s.idleFd fd := by
  refine ⟨fun hown => ?_, fun hown => ?_, fun hown => ?_⟩
  · simpa [hfree] using (h.acceptSocket fd).mpr ⟨hnonneg, hown⟩
  · simpa [hfree] using (h.idle fd).mpr ⟨hnonneg, hown⟩
  · obtain ⟨n, hn⟩ := (h.accepted fd).mpr ⟨hnonneg, hown⟩
    simp [hfree] at hn

lemma Kept.handleRead (h : s.Kept) (hplace : s.place = .outside) (failure : Option Errno) :
    (s.handleRead failure).Kept := by
  rcases s.handleRead_spec failure with heq | ⟨heq, -⟩ | ⟨fd, n, backlog, hnonneg, hlt, hfree, -, heq⟩
  · rwa [heq]
  · rw [heq]
    exact h.goes h.idleFd (by simp) (by simp [hplace]) (by simp [hplace, Place.HasIdle])
      (by simp [hplace, Place.InHand])
  · rw [heq]
    obtain ⟨hsocket, hidle, -⟩ := h.free hnonneg hfree
    rw [hplace] at hsocket hidle
    refine h.own rfl rfl rfl rfl rfl (fun _ => ⟨hnonneg, hlt⟩) h.idleFd ?_ ⟨?_, ?_, ?_⟩ fun fd' hne _ => ⟨?_, ?_, ?_⟩
    · rintro _ ⟨⟩
      exact hnonneg
    · simpa using fun _ hfd => hsocket ⟨hfd, by simp⟩
    · simpa [Place.HasIdle] using fun _ hfd => hidle ⟨hfd, trivial⟩
    · simpa [Place.InHand] using hnonneg
    · simp [hplace]
    · simp [hplace, Place.HasIdle]
    · simpa [hplace, Place.InHand] using hne

/-- No descriptor of the acceptor has two uses. -/
lemma Kept.roles (h : s.Kept) {fd : ℤ} (hnonneg : 0 ≤ fd) :
    (fd = s.acceptFd ∧ s.place ≠ .destroyed → ¬ (fd = s.idleFd ∧ s.place.HasIdle) ∧ ¬ s.place.InHand s.idleFd fd) ∧
      (fd = s.idleFd ∧ s.place.HasIdle → ¬ s.place.InHand s.idleFd fd) := by
  refine ⟨fun hsocket => ⟨fun hidle => ?_, fun hhand => ?_⟩, fun hidle hhand => ?_⟩
  · have hfd := (h.acceptSocket fd).mpr ⟨hnonneg, hsocket⟩
    simpa [hfd] using (h.idle fd).mpr ⟨hnonneg, hidle⟩
  · have hfd := (h.acceptSocket fd).mpr ⟨hnonneg, hsocket⟩
    simpa [hfd] using (h.accepted fd).mpr ⟨hnonneg, hhand⟩
  · have hfd := (h.idle fd).mpr ⟨hnonneg, hidle⟩
    simpa [hfd] using (h.accepted fd).mpr ⟨hnonneg, hhand⟩

/-- The acceptor closes a descriptor, and goes on somewhere else. -/
lemma Kept.closes (h : s.Kept) {fd : ℤ} {place : Place} (hconn : ∀ connFd, place ≠ .accepted connFd)
    (hsocket : ∀ fd', 0 ≤ fd' → fd' = s.acceptFd → (place ≠ .destroyed ↔ s.place ≠ .destroyed ∧ fd' ≠ fd))
    (hidle : ∀ fd', 0 ≤ fd' → fd' = s.idleFd → (place.HasIdle ↔ s.place.HasIdle ∧ fd' ≠ fd))
    (hhand : ∀ fd', 0 ≤ fd' → (place.InHand s.idleFd fd' ↔ s.place.InHand s.idleFd fd' ∧ fd' ≠ fd)) :
    Kept { s.close fd with place := place } := by
  refine h.own rfl rfl rfl rfl rfl (fun hne => absurd rfl hne) h.idleFd (fun connFd heq => absurd heq (hconn connFd))
    ⟨?_, ?_, ?_⟩ fun fd' hne hnonneg => ⟨fun hfd' => ?_, ?_, ?_⟩
  · simpa using fun hnonneg hfd hplace => ((hsocket fd hnonneg hfd).mp hplace).2 rfl
  · simpa [close] using fun hnonneg hfd hplace => ((hidle fd hnonneg hfd).mp hplace).2 rfl
  · simpa [close] using fun hnonneg hplace => ((hhand fd hnonneg).mp hplace).2 rfl
  · exact not_iff_not.mp ((hsocket fd' hnonneg hfd').trans (and_iff_left hne))
  · exact and_congr_right fun hfd' => (hidle fd' hnonneg hfd').trans (and_iff_left hne)
  · exact (hhand fd' hnonneg).trans (and_iff_left hne)

/-- `/dev/null` is opened. -/
lemma Kept.opens (h : s.Kept) (hplace : s.place = .openIdle) {fd : ℤ} (hnonneg : 0 ≤ fd) (hlt : fd < s.limit)
    (hfree : s.fds fd = none) :
    Kept { s with fds := Function.update s.fds fd (some .idle), idleFd := fd, place := .outside } := by
  obtain ⟨hsocket, -, -⟩ := h.free hnonneg hfree
  rw [hplace] at hsocket
  refine h.own rfl rfl rfl rfl rfl (fun _ => ⟨hnonneg, hlt⟩) (Or.inl hnonneg) (by simp) ⟨?_, ?_, ?_⟩
    fun fd' hne _ => ⟨?_, ?_, ?_⟩
  · simpa using fun _ hfd => hsocket ⟨hfd, by simp⟩
  · simpa [Place.HasIdle] using hnonneg
  · simp [Place.InHand]
  · simp [hplace]
  · simpa [hplace, Place.HasIdle] using hne
  · simp [hplace, Place.InHand]

/-- The connection in hand is given away. -/
lemma Kept.handOver (h : s.Kept) {connFd : ℤ} (hplace : s.place = .accepted connFd) :
    Kept { s.handOver connFd with place := .outside } := by
  have hnonneg := h.connFd connFd hplace
  have hhand : s.place.InHand s.idleFd connFd := by simp [hplace, Place.InHand]
  obtain ⟨hsocket, hidle⟩ := h.roles hnonneg
  obtain ⟨n, hn⟩ := (h.accepted connFd).mpr ⟨hnonneg, hhand⟩
  rw [Acceptor.handOver, hn]
  refine h.own rfl rfl rfl rfl rfl (fun _ => h.range connFd _ hn) h.idleFd (by simp) ⟨?_, ?_, ?_⟩
    fun fd hne _ => ⟨?_, ?_, ?_⟩
  · simpa using fun _ hfd => (hsocket ⟨hfd, by simp [hplace]⟩).2 hhand
  · simpa using fun _ hfd _ => hidle ⟨hfd, by simp [hplace, Place.HasIdle]⟩ hhand
  · simp [Place.InHand]
  · simp [hplace]
  · simp [hplace, Place.HasIdle]
  · simpa [hplace, Place.InHand] using hne

/-- The connection in hand is closed. -/
lemma Kept.refuse (h : s.Kept) {connFd : ℤ} (hplace : s.place = .accepted connFd) :
    Kept { s.close connFd with place := .outside } := by
  have hhand : s.place.InHand s.idleFd connFd := by simp [hplace, Place.InHand]
  obtain ⟨hsocket, hidle⟩ := h.roles (h.connFd connFd hplace)
  refine h.closes (by simp) (fun fd _ hfd => ?_) (fun fd _ hfd => ?_) (fun fd _ => ?_)
  · simp only [hplace, ne_eq, reduceCtorEq, not_false_eq_true, true_and, true_iff]
    rintro rfl
    exact (hsocket ⟨hfd, by simp [hplace]⟩).2 hhand
  · simp only [hplace, Place.HasIdle, true_and, true_iff]
    rintro rfl
    exact hidle ⟨hfd, by simp [hplace, Place.HasIdle]⟩ hhand
  · simp [hplace, Place.InHand]

/-- `m_idleFd` is closed, in `handleRead` or in the destructor. -/
lemma Kept.closesIdle (h : s.Kept) {place : Place} (hplace : s.place = .closeIdle ∨ s.place = .outside)
    (hnext : place = .acceptIdle ∨ place = .destroying) : Kept { s.close s.idleFd with place := place } := by
  have hidle : s.place.HasIdle := by rcases hplace with hplace | hplace <;> simp [hplace, Place.HasIdle]
  have hlives : s.place ≠ .destroyed := by rcases hplace with hplace | hplace <;> simp [hplace]
  have hnone : ∀ fd, ¬ s.place.InHand s.idleFd fd := by
    rcases hplace with hplace | hplace <;> simp [hplace, Place.InHand]
  have hdifferent : ∀ fd, 0 ≤ fd → fd = s.acceptFd → fd ≠ s.idleFd := fun fd hnonneg hfd heq =>
    ((h.roles hnonneg).1 ⟨hfd, hlives⟩).1 ⟨heq, hidle⟩
  rcases hnext with rfl | rfl
  · refine h.closes (by simp) (fun fd hnonneg hfd => ?_) (fun fd _ hfd => ?_) (fun fd _ => ?_)
    · simpa [hlives] using hdifferent fd hnonneg hfd
    · simp [Place.HasIdle, hfd]
    · exact iff_of_false id fun hhand => hnone fd hhand.1
  · refine h.closes (by simp) (fun fd hnonneg hfd => ?_) (fun fd _ hfd => ?_) (fun fd _ => ?_)
    · simpa [hlives] using hdifferent fd hnonneg hfd
    · simp [Place.HasIdle, hfd]
    · exact iff_of_false id fun hhand => hnone fd hhand.1

/-- **Every system call of the acceptor** keeps the invariant. -/
lemma Kept.proceed (h : s.Kept) {failure : Option Errno} (hok : s.proceed failure = .ok s') : s'.Kept := by
  cases proceeds_of_ok hok with
  | handOver connFd hplace => exact h.handOver hplace
  | refuse connFd hplace => exact h.refuse hplace
  | closeIdle hplace => exact h.closesIdle (Or.inl hplace) (Or.inl rfl)
  | acceptFails hplace =>
      refine h.goes (Or.inr rfl) (by simp) (by simp [hplace]) (fun fd _ => ?_) fun fd hnonneg => ?_
      · simp [hplace, Place.HasIdle]
      · simp only [hplace, Place.InHand, iff_false]
        omega
  | acceptIdle fd n backlog hplace hnonneg hlt hfree =>
      obtain ⟨hsocket, -, -⟩ := h.free hnonneg hfree
      rw [hplace] at hsocket
      refine h.own rfl rfl rfl rfl rfl (fun _ => ⟨hnonneg, hlt⟩) (Or.inl hnonneg) (by simp) ⟨?_, ?_, ?_⟩
        fun fd' hne _ => ⟨?_, ?_, ?_⟩
      · simpa using fun _ hfd => hsocket ⟨hfd, by simp⟩
      · simp [Place.HasIdle]
      · simpa [Place.InHand] using hnonneg
      · simp [hplace]
      · simp [hplace, Place.HasIdle]
      · simpa [hplace, Place.InHand] using hne
  | closeAccepted hplace =>
      refine h.closes (by simp) (fun fd hnonneg hfd => ?_) (fun fd _ hfd => ?_) (fun fd _ => ?_)
      · simp only [hplace, ne_eq, reduceCtorEq, not_false_eq_true, true_and, true_iff]
        intro hhand
        exact ((h.roles hnonneg).1 ⟨hfd, by simp [hplace]⟩).2 (by simpa [hplace, Place.InHand] using hhand)
      · simp [hplace, Place.HasIdle]
      · simp [hplace, Place.InHand]
  | openFails errno hplace =>
      refine h.goes (Or.inr rfl) (by simp) (by simp [hplace]) (fun fd hnonneg => ?_) fun fd _ => ?_
      · simp only [hplace, Place.HasIdle, and_true, and_false, iff_false]
        omega
      · simp [hplace, Place.InHand]
  | openIdle fd hplace hnonneg hlt hfree => exact h.opens hplace hnonneg hlt hfree
  | closeSocket hplace =>
      refine h.closes (by simp) (fun fd _ hfd => ?_) (fun fd _ hfd => ?_) (fun fd _ => ?_)
      · simp [hfd]
      · simp [hplace, Place.HasIdle]
      · simp [hplace, Place.InHand]

/-- **Every step** of the process. -/
lemma Kept.step (h : s.Kept) (hok : s.step a = .ok s') : s'.Kept := by
  cases a with
  | arrive n =>
      rw [← Except.ok.inj hok]
      exact h.of_own rfl h.range (fun _ _ _ => Iff.rfl) rfl rfl rfl
  | handleRead failure =>
      rw [Acceptor.step, guard_eq_ok, Except.ok.injEq] at hok
      rw [← hok.2]
      exact h.handleRead hok.1 failure
  | proceed failure => exact h.proceed hok
  | destroy =>
      rw [Acceptor.step, guard_eq_ok, Except.ok.injEq] at hok
      rw [← hok.2]
      exact h.closesIdle (Or.inr hok.1) (Or.inr rfl)
  | openFd =>
      rw [← Except.ok.inj hok]
      rcases s.openFd_spec .other none with ⟨errno, heq⟩ | ⟨fd, hnonneg, hlt, hfree, heq⟩
      · rwa [heq]
      · rw [heq]
        exact h.update_foreign (by rw [hfree]; rfl) rfl fun _ => ⟨hnonneg, hlt⟩
  | closeFd fd =>
      rw [Acceptor.step, guard_eq_ok, Except.ok.injEq] at hok
      rw [← hok.2]
      refine h.update_foreign ?_ rfl fun hne => absurd rfl hne
      obtain ⟨d, hd, hforeign⟩ := (Option.any_eq_true _ _).mp hok.1
      simpa [hd] using hforeign

/-- The process before the acceptor is constructed. -/
structure Others (limit : ℕ) (fds : ℤ → Option Descriptor) : Prop where
  range : ∀ fd d, fds fd = some d → 0 ≤ fd ∧ fd < limit
  foreign : ∀ fd d, fds fd = some d → d.foreign = true

/-- The constructor, when the socket has been created, or not. -/
lemma Others.kept {limit : ℕ} {fds : ℤ → Option Descriptor} (h : Others limit fds) (callback : Bool) :
    Kept ⟨limit, fds, [], -1, -1, callback, .openIdle, []⟩ ∧
      ∀ acceptFd : ℤ, 0 ≤ acceptFd → acceptFd < limit → fds acceptFd = none →
        Kept ⟨limit, Function.update fds acceptFd (some .acceptSocket), [], acceptFd, -1, callback, .openIdle, []⟩ := by
  have hown : ∀ {fd d}, d.foreign = false → fds fd ≠ some d := by
    intro fd d hd hsome
    simp [h.foreign fd d hsome] at hd
  have hsocket : ∀ fd, fds fd ≠ some .acceptSocket := fun fd => hown rfl
  have hidle : ∀ fd, fds fd ≠ some .idle := fun fd => hown rfl
  have haccepted : ∀ fd n, fds fd ≠ some (.accepted n) := fun fd n => hown rfl
  refine ⟨⟨h.range, Or.inr rfl, Or.inr rfl, by simp, fun fd => ?_, fun fd => ?_, fun fd => ?_⟩,
    fun acceptFd hnonneg hlt hfree => ⟨fun fd d hd => ?_, Or.inl hnonneg, Or.inr rfl, by simp, fun fd => ?_,
      fun fd => ?_, fun fd => ?_⟩⟩
  · refine iff_of_false (hsocket fd) fun hfd => ?_
    have hneg : fd = -1 := hfd.2.1
    omega
  · simp [hidle, Place.HasIdle]
  · simp [haccepted, Place.InHand]
  all_goals by_cases heq : fd = acceptFd
  · rw [heq]
    exact ⟨hnonneg, hlt⟩
  · exact h.range fd d (by simpa [Function.update_of_ne heq] using hd)
  · simp [heq, hnonneg]
  · simp [hsocket, heq]
  · simp [heq, Place.HasIdle]
  · simp [Function.update_of_ne heq, hidle, Place.HasIdle]
  · simp [heq, Place.InHand]
  · simp [Function.update_of_ne heq, haccepted, Place.InHand]

/-- **The constructor.**  `m_idleFd` is open, or the assertion has failed. -/
lemma create_kept {limit : ℕ} {fds : ℤ → Option Descriptor} {callback : Bool} {failure failure' : Option Errno}
    (h : Others limit fds) (hcreate : create limit fds callback failure failure' = some s) :
    s.Kept ∧ 0 ≤ s.idleFd ∧ s.place = .outside ∧ s.closed = [] ∧ s.backlog = [] := by
  obtain ⟨acceptFd, s₁, idleFd, s₂, hsocket, hidle, rfl⟩ := create_spec hcreate
  obtain ⟨hkept, hplace, hclosed, hbacklog⟩ :
      Kept { s₁ with acceptFd := acceptFd.toOption.getD (-1), place := .openIdle } ∧ s₁.place = .outside ∧
        s₁.closed = [] ∧ s₁.backlog = [] := by
    rcases openFd_spec ⟨limit, fds, [], -1, -1, callback, .outside, []⟩ .acceptSocket failure with
      ⟨errno, heq⟩ | ⟨fd, hnonneg, hlt, hfree, heq⟩
    · rw [hsocket, Prod.mk.injEq] at heq
      obtain ⟨rfl, rfl⟩ := heq
      exact ⟨(h.kept callback).1, rfl, rfl, rfl⟩
    · rw [hsocket, Prod.mk.injEq] at heq
      obtain ⟨rfl, rfl⟩ := heq
      exact ⟨(h.kept callback).2 fd hnonneg hlt hfree, rfl, rfl, rfl⟩
  rcases openFd_spec { s₁ with acceptFd := acceptFd.toOption.getD (-1) } .idle failure' with
    ⟨errno, heq⟩ | ⟨fd, hnonneg, hlt, hfree, heq⟩
  · simp [hidle] at heq
  · rw [hidle, Prod.mk.injEq, Except.ok.injEq] at heq
    obtain ⟨rfl, rfl⟩ := heq
    -- the constructor opens `/dev/null` as `handleRead` does
    have hopens := hkept.opens rfl hnonneg hlt hfree
    rw [← hplace] at hopens
    exact ⟨hopens, hnonneg, hplace, hclosed, hbacklog⟩

/-! ## What is closed -/

/-- The acceptor may close it: it is its own, or not open at all. -/
def Owned (s : Acceptor) (fd : ℤ) : Prop :=
  fd = -1 ∧ s.fds fd = none ∨ ∃ d, s.fds fd = some d ∧ d.foreign = false

lemma Kept.lookup_neg (h : s.Kept) : s.fds (-1) = none := by
  rw [Option.eq_none_iff_forall_ne_some]
  intro d hd
  have hnonneg := (h.range (-1) d hd).1
  omega

lemma Kept.owned_acceptFd (h : s.Kept) (hplace : s.place ≠ .destroyed) : s.Owned s.acceptFd := by
  rcases h.acceptFd with hnonneg | hneg
  · exact Or.inr ⟨_, (h.acceptSocket s.acceptFd).mpr ⟨hnonneg, rfl, hplace⟩, rfl⟩
  · exact Or.inl ⟨hneg, hneg ▸ h.lookup_neg⟩

lemma Kept.lookup_idle (h : s.Kept) (hplace : s.place.HasIdle) (hnonneg : 0 ≤ s.idleFd) :
    s.fds s.idleFd = some .idle :=
  (h.idle s.idleFd).mpr ⟨hnonneg, rfl, hplace⟩

lemma Kept.owned_idleFd (h : s.Kept) (hplace : s.place.HasIdle) : s.Owned s.idleFd := by
  rcases h.idleFd with hnonneg | hneg
  · exact Or.inr ⟨_, h.lookup_idle hplace hnonneg, rfl⟩
  · exact Or.inl ⟨hneg, hneg ▸ h.lookup_neg⟩

lemma Kept.owned_connFd (h : s.Kept) {fd : ℤ} (hvalid : 0 ≤ fd ∨ fd = -1) (hhand : s.place.InHand s.idleFd fd) :
    s.Owned fd := by
  rcases hvalid with hnonneg | hneg
  · obtain ⟨n, hn⟩ := (h.accepted fd).mpr ⟨hnonneg, hhand⟩
    exact Or.inr ⟨_, hn, rfl⟩
  · exact Or.inl ⟨hneg, hneg ▸ h.lookup_neg⟩

/-- What the acceptor does, in the eyes of the others: it closes one descriptor at most, which is not theirs, and
theirs are as they were. -/
structure Spares (s s' : Acceptor) : Prop where
  closed : s'.closed = s.closed ∨ ∃ fd, s.Owned fd ∧ s'.closed = s.closed ++ [(fd, s.fds fd)]
  foreign : ∀ fd d, d.foreign = true → s.fds fd = some d → s'.fds fd = some d

lemma Spares.of_eq (hclosed : s'.closed = s.closed) (hfds : s'.fds = s.fds) : s.Spares s' :=
  ⟨Or.inl hclosed, fun fd d _ hd => by rw [hfds, hd]⟩

lemma Spares.of_update {fd : ℤ} {d : Option Descriptor} (hold : ∀ d', s.fds fd = some d' → d'.foreign = false)
    (hfds : s'.fds = Function.update s.fds fd d)
    (hclosed : s'.closed = s.closed ∨ ∃ fd, s.Owned fd ∧ s'.closed = s.closed ++ [(fd, s.fds fd)]) : s.Spares s' := by
  refine ⟨hclosed, fun fd' d' hforeign hd' => ?_⟩
  have hne : fd' ≠ fd := by
    rintro rfl
    simp [hold d' hd'] at hforeign
  rw [hfds, Function.update_of_ne hne, hd']

/-- A descriptor that was free is opened. -/
lemma Spares.of_free {fd : ℤ} {d : Option Descriptor} (hfree : s.fds fd = none)
    (hfds : s'.fds = Function.update s.fds fd d) (hclosed : s'.closed = s.closed) : s.Spares s' :=
  .of_update (by simp [hfree]) hfds (Or.inl hclosed)

/-- The acceptor closes what is its own. -/
lemma Spares.of_close {fd : ℤ} (howned : s.Owned fd) (hfds : s'.fds = (s.close fd).fds)
    (hclosed : s'.closed = (s.close fd).closed) : s.Spares s' := by
  refine .of_update (fun d' hd' => ?_) hfds (Or.inr ⟨fd, howned, hclosed⟩)
  rcases howned with ⟨-, hnone⟩ | ⟨d, hd, hown⟩
  · simp [hnone] at hd'
  · rw [hd, Option.some.injEq] at hd'
    rw [← hd', hown]

lemma Kept.proceed_spares (h : s.Kept) {failure : Option Errno} (hok : s.proceed failure = .ok s') : s.Spares s' := by
  cases proceeds_of_ok hok with
  | handOver connFd hplace =>
      obtain ⟨n, hn⟩ := (h.accepted connFd).mpr ⟨h.connFd connFd hplace, by simp [hplace, Place.InHand]⟩
      rw [Acceptor.handOver, hn]
      refine .of_update (fun d' hd' => ?_) rfl (Or.inl rfl)
      rw [hn, Option.some.injEq] at hd'
      rw [← hd']
      rfl
  | refuse connFd hplace =>
      have howned := h.owned_connFd (Or.inl (h.connFd connFd hplace)) (by simp [hplace, Place.InHand])
      exact .of_close howned rfl rfl
  | closeIdle hplace => exact .of_close (h.owned_idleFd (by simp [hplace, Place.HasIdle])) rfl rfl
  | closeAccepted hplace => exact .of_close (h.owned_connFd h.idleFd (by simp [hplace, Place.InHand])) rfl rfl
  | closeSocket hplace => exact .of_close (h.owned_acceptFd (by simp [hplace])) rfl rfl
  | acceptIdle fd n backlog hplace hnonneg hlt hfree => exact .of_free hfree rfl rfl
  | openIdle fd hplace hnonneg hlt hfree => exact .of_free hfree rfl rfl
  | acceptFails | openFails => exact .of_eq rfl rfl

lemma Kept.step_spares (h : s.Kept) (hok : s.step a = .ok s') (hclose : ∀ fd, a ≠ .closeFd fd) : s.Spares s' := by
  cases a with
  | arrive n =>
      rw [← Except.ok.inj hok]
      exact .of_eq rfl rfl
  | handleRead failure =>
      rw [Acceptor.step, guard_eq_ok, Except.ok.injEq] at hok
      rw [← hok.2]
      rcases s.handleRead_spec failure with heq | ⟨heq, -⟩ | ⟨fd, n, backlog, -, -, hfree, -, heq⟩
      · rw [heq]
        exact .of_eq rfl rfl
      · rw [heq]
        exact .of_eq rfl rfl
      · rw [heq]
        exact .of_free hfree rfl rfl
  | proceed failure => exact h.proceed_spares hok
  | destroy =>
      rw [Acceptor.step, guard_eq_ok, Except.ok.injEq] at hok
      rw [← hok.2]
      exact .of_close (h.owned_idleFd (by simp [hok.1, Place.HasIdle])) rfl rfl
  | openFd =>
      rw [← Except.ok.inj hok]
      rcases s.openFd_spec .other none with ⟨errno, heq⟩ | ⟨fd, -, -, hfree, heq⟩
      · rw [heq]
        exact .of_eq rfl rfl
      · rw [heq]
        exact .of_free hfree rfl rfl
  | closeFd fd => exact absurd rfl (hclose fd)

/-- All that the acceptor has closed was its own. -/
def ClosesOwn (s : Acceptor) : Prop :=
  ∀ c ∈ s.closed, c = (-1, none) ∨ ∃ d, c.2 = some d ∧ d.foreign = false

lemma ClosesOwn.step (h : s.ClosesOwn) (hkept : s.Kept) (hok : s.step a = .ok s') : s'.ClosesOwn := by
  by_cases hclose : ∃ fd, a = .closeFd fd
  · obtain ⟨fd, rfl⟩ := hclose
    rw [(closeFd_ok hok).2]
    exact h
  · rw [not_exists] at hclose
    intro c hc
    rcases (hkept.step_spares hok hclose).closed with heq | ⟨fd, howned, heq⟩
    · exact h c (heq ▸ hc)
    · rw [heq, List.mem_append, List.mem_singleton] at hc
      rcases hc with hc | rfl
      · exact h c hc
      · rcases howned with ⟨hneg, hnone⟩ | hown
        · exact Or.inl (by rw [hneg, ← hneg, hnone])
        · exact Or.inr hown

/-- A call of `handleRead` that finds no descriptor free, when no system call fails for another reason. -/
def fullCall : List Action := .handleRead none :: List.replicate 4 (.proceed none)

/-- Four descriptors are taken. -/
def busy (fd : ℤ) : Option Descriptor := if 0 ≤ fd ∧ fd < 4 then some .other else none

lemma others_busy {limit : ℕ} (hlimit : 4 ≤ limit) : Others limit busy := by
  refine ⟨fun fd d hd => ?_, fun fd d hd => ?_⟩
  · rw [busy, Option.ite_none_right_eq_some] at hd
    omega
  · rw [busy, Option.ite_none_right_eq_some, Option.some.injEq] at hd
    rw [← hd.2]
    rfl

/-- An acceptor, and a run whose last state is observed. -/
lemma created_of_map {β : Type*} {o : Option Acceptor} {as : List Action} {g : Acceptor → β} {v : β}
    (h : (o.map fun s₀ => (Machine.run step s₀ as).map g) = some (.ok v)) :
    ∃ s₀ t, o = some s₀ ∧ Machine.run step s₀ as = .ok t ∧ g t = v := by
  obtain ⟨s₀, hcreate, hrun⟩ := Option.map_eq_some_iff.mp h
  obtain ⟨t, hrun, hobs⟩ := Machine.ok_of_map hrun
  exact ⟨s₀, t, hcreate, hrun, hobs⟩

/-- The last descriptor is opened, and closed after the first of two connections has been refused. -/
def fullOnce : List Action :=
  [.openFd, .arrive 1, .arrive 2] ++ fullCall ++ [.closeFd 6, .handleRead none, .proceed none]

/-- **No descriptor is closed that is somebody else's, and none is lost.**  In every run with an acceptor, whatever the
other threads open and close between two of its system calls, and whichever of them fail: what the acceptor closes is
its own, or -1.  Only the thread that it belongs to closes a descriptor that is not the acceptor's.  Outside
`handleRead` the acceptor has no other descriptors than `m_acceptSocket` and `m_idleFd`, and after the destructor
none. -/
theorem closes_own {limit : ℕ} {fds : ℤ → Option Descriptor} {callback : Bool} {failure failure' : Option Errno}
    {s₀ : Acceptor} (hothers : Others limit fds) (hcreate : create limit fds callback failure failure' = some s₀)
    (as : List Action) : ∀ t ∈ Machine.states step s₀ as,
      (∀ c ∈ t.closed, c = (-1, none) ∨ ∃ d, c.2 = some d ∧ d.foreign = false) ∧
      (∀ a t', t.step a = .ok t' → ∀ fd d, d.foreign = true → t.fds fd = some d → a ≠ .closeFd fd →
        t'.fds fd = some d) ∧
      (t.place = .outside → ∀ fd d, t.fds fd = some d → d.foreign = false →
        fd = t.acceptFd ∧ d = .acceptSocket ∨ fd = t.idleFd ∧ d = .idle) ∧
      (t.place = .destroyed → ∀ fd d, t.fds fd = some d → d.foreign = true) := by
  intro t ht
  obtain ⟨hkept₀, -, -, hclosed₀, -⟩ := create_kept hothers hcreate
  have hstart : s₀.Kept ∧ s₀.ClosesOwn := ⟨hkept₀, by simp [ClosesOwn, hclosed₀]⟩
  obtain ⟨hkept, hcloses⟩ := Machine.states_invariant (I := fun t => t.Kept ∧ t.ClosesOwn)
    (fun s a s' h hok => ⟨h.1.step hok, h.2.step h.1 hok⟩) hstart t ht
  refine ⟨hcloses, fun a t' hok fd d hforeign hd hne => ?_, fun hplace fd d hd hown => ?_, fun hplace fd d hd => ?_⟩
  · by_cases hclose : ∃ fd', a = .closeFd fd'
    · obtain ⟨fd', rfl⟩ := hclose
      have hne' : fd ≠ fd' := fun heq => hne (by rw [heq])
      rw [(closeFd_ok hok).2]
      simpa only [Function.update_of_ne hne'] using hd
    · exact (hkept.step_spares hok (not_exists.mp hclose)).foreign fd d hforeign hd
  · cases d with
    | acceptSocket => exact Or.inl ⟨((hkept.acceptSocket fd).mp hd).2.1, rfl⟩
    | idle => exact Or.inr ⟨((hkept.idle fd).mp hd).2.1, rfl⟩
    | accepted n => simpa [hplace, Place.InHand] using (hkept.accepted fd).mp ⟨n, hd⟩
    | handed n | other => simp [Descriptor.foreign] at hown
  · cases d with
    | acceptSocket => simpa [hplace] using (hkept.acceptSocket fd).mp hd
    | idle => simpa [hplace, Place.HasIdle] using (hkept.idle fd).mp hd
    | accepted n => simpa [hplace, Place.InHand] using (hkept.accepted fd).mp ⟨n, hd⟩
    | handed n | other => rfl

/-- After the destructor. -/
theorem closes_own_fullOnce :
    ∃ s₀ t, create 7 busy true none none = some s₀ ∧
      Machine.run step s₀ (fullOnce ++ [.destroy, .proceed none]) = .ok t ∧ t.fds 6 = some (.handed 2) ∧
      ∀ fd d, t.fds fd = some d → d.foreign = true := by
  have hrun : ((create 7 busy true none none).map fun s₀ =>
      (Machine.run step s₀ (fullOnce ++ [.destroy, .proceed none])).map fun t => (t.place, t.fds 6))
      = some (.ok (.destroyed, some (.handed 2))) := by
    decide +kernel
  obtain ⟨s₀, t, hcreate, hrun, hobs⟩ := created_of_map hrun
  rw [Prod.mk.injEq] at hobs
  obtain ⟨-, -, -, hdestroyed⟩ :=
    closes_own (others_busy (by decide)) hcreate (fullOnce ++ [.destroy, .proceed none]) t
      (Machine.mem_states_of_run hrun)
  exact ⟨s₀, t, hcreate, hrun, hobs.2, hdestroyed hobs.1⟩

end Acceptor

end Seenet
