import Seenet.Acceptor.Connections

/-!
# `m_idleFd`

The trick works as long as nobody takes the descriptor that the acceptor gives up.

* `Ready`, `Lost` — `m_idleFd` is open or can be opened; it is gone.
* **`full_table_drains`** — if nobody takes the descriptor, `m_idleFd` is there again afterwards, and a full table does
  not keep the connections waiting.
* **`lost_for_good`** — once somebody has taken it, `m_idleFd` stays closed, and a full table does keep them waiting.
-/

namespace Seenet

namespace Acceptor

variable {s s' : Acceptor} {a : Action}

/-! ## The descriptor that is given up -/

/-- A descriptor can be opened. -/
def Free (s : Acceptor) : Prop := ∃ fd : ℤ, 0 ≤ fd ∧ fd < s.limit ∧ s.fds fd = none

/-- Nobody takes the descriptor that is given up, and `open` does not fail for another reason than `EMFILE`. -/
def Undisturbed (s : Acceptor) (a : Action) : Prop :=
  s.place.Gap → a ≠ .openFd ∧ (s.place = .openIdle → ∀ errno, a ≠ .proceed (some errno))

/-- `m_idleFd` is open, or can be opened. -/
def Ready (s : Acceptor) : Prop :=
  match s.place with
  | .outside | .accepted _ | .closeIdle => 0 ≤ s.idleFd
  | .acceptIdle | .openIdle => s.Free
  | .closeAccepted => 0 ≤ s.idleFd ∨ s.Free
  | .destroying | .destroyed => True

lemma Free.close (h : s.Free) (fd : ℤ) : (s.close fd).Free := by
  obtain ⟨fd', hnonneg, hlt, hfree⟩ := h
  refine ⟨fd', hnonneg, hlt, ?_⟩
  by_cases heq : fd' = fd
  · rw [heq]
    exact Function.update_self ..
  · rw [← hfree]
    exact Function.update_of_ne heq ..

/-- What was open is free when it has been closed. -/
lemma Kept.free_close (h : s.Kept) {fd : ℤ} {d : Descriptor} (hd : s.fds fd = some d) : (s.close fd).Free := by
  obtain ⟨hnonneg, hlt⟩ := h.range fd d hd
  exact ⟨fd, hnonneg, hlt, Function.update_self ..⟩

lemma Free.openFd (h : s.Free) (d : Descriptor) :
    ∃ fd : ℤ, 0 ≤ fd ∧ s.openFd d none = (.ok fd, { s with fds := Function.update s.fds fd (some d) }) := by
  obtain ⟨fd, hnonneg, hlt, hfree⟩ := h
  obtain ⟨fd', hlowest⟩ := Handles.lowest_isSome hnonneg hlt hfree
  exact ⟨fd', (Handles.lowest_eq_some hlowest).1, by rw [Acceptor.openFd, hlowest]⟩

lemma Ready.proceed (h : s.Ready) (hkept : s.Kept) {failure : Option Errno}
    (hundisturbed : s.Undisturbed (.proceed failure)) (hok : s.proceed failure = .ok s') : s'.Ready := by
  rw [Ready] at h
  cases proceeds_of_ok hok with
  | handOver connFd hplace =>
      simp only [hplace] at h
      rw [handOver]
      split
      · exact h
      · exact h
  | refuse connFd hplace =>
      simp only [hplace] at h
      exact h
  | closeIdle hplace =>
      simp only [hplace] at h
      exact hkept.free_close (hkept.lookup_idle (by simp [hplace, Place.HasIdle]) h)
  | acceptFails hplace =>
      simp only [hplace] at h
      exact Or.inr h
  | acceptIdle fd n backlog hplace hnonneg => exact Or.inl hnonneg
  | closeAccepted hplace =>
      simp only [hplace] at h
      -- if no connection was there to be accepted, the descriptor given up is free still
      rcases h with hnonneg | hfree
      · obtain ⟨n, hn⟩ := (hkept.accepted s.idleFd).mpr ⟨hnonneg, by simp [hplace, Place.InHand]⟩
        exact hkept.free_close hn
      · exact hfree.close s.idleFd
  | openFails errno hplace hfails =>
      simp only [hplace] at h
      cases failure with
      | some errno => exact absurd rfl ((hundisturbed (by simp [hplace, Place.Gap])).2 hplace errno)
      | none =>
          obtain ⟨fd, -, heq⟩ := h.openFd .idle
          simp [hfails] at heq
  | openIdle fd hplace hnonneg => exact hnonneg
  | closeSocket hplace => trivial

lemma Ready.step (h : s.Ready) (hkept : s.Kept) (hundisturbed : s.Undisturbed a) (hok : s.step a = .ok s') :
    s'.Ready := by
  cases a with
  | arrive n =>
      rw [← Except.ok.inj hok]
      exact h
  | handleRead failure =>
      rw [Acceptor.step, guard_eq_ok, Except.ok.injEq] at hok
      obtain ⟨hplace, rfl⟩ := hok
      rcases s.handleRead_spec failure with heq | ⟨heq, -⟩ | ⟨fd, n, backlog, -, -, -, -, heq⟩
      · rwa [heq]
      · rw [heq]
        rwa [Ready, hplace] at h
      · rw [heq]
        rwa [Ready, hplace] at h
  | proceed failure => exact h.proceed hkept hundisturbed hok
  | destroy =>
      rw [Acceptor.step, guard_eq_ok, Except.ok.injEq] at hok
      rw [← hok.2]
      trivial
  | openFd =>
      have hgap : ¬ s.place.Gap := fun hgap => (hundisturbed hgap).1 rfl
      rw [← Except.ok.inj hok]
      rcases s.openFd_spec .other none with ⟨errno, heq⟩ | ⟨fd, -, -, -, heq⟩
      · rwa [heq]
      · rw [heq]
        rw [Ready] at h ⊢
        dsimp only
        cases hplace : s.place with
        | acceptIdle | closeAccepted | openIdle => exact absurd (by simp [hplace, Place.Gap]) hgap
        | outside | accepted connFd | closeIdle => simpa [hplace] using h
        | destroying | destroyed => trivial
  | closeFd fd =>
      obtain ⟨-, rfl⟩ := closeFd_ok hok
      rw [Ready] at h ⊢
      dsimp only
      cases hplace : s.place with
      | acceptIdle | openIdle =>
          simp only [hplace] at h
          exact h.close fd
      | closeAccepted =>
          simp only [hplace] at h
          exact h.imp id fun hfree => hfree.close fd
      | outside | accepted connFd | closeIdle => simpa [hplace] using h
      | destroying | destroyed => trivial

/-- One connection less waits, and the table is as it was. -/
lemma run_fullCall (hplace : s.place = .outside) (hsocket : s.fds s.acceptFd = some .acceptSocket)
    (hnonneg : 0 ≤ s.idleFd) (hlt : s.idleFd < s.limit) (hidle : s.fds s.idleFd = some .idle)
    (hfull : Handles.lowest s.limit s.fds = none) {n : ℕ} {backlog : List ℕ} (hbacklog : s.backlog = n :: backlog) :
    Machine.run step s fullCall = .ok { s with
      backlog := backlog, closed := s.closed ++ [(s.idleFd, some .idle), (s.idleFd, some (.accepted n))] } := by
  have hlowest := Handles.lowest_update_none hfull hnonneg hlt
  have hne : s.acceptFd ≠ s.idleFd := by
    intro heq
    simp [heq, hidle] at hsocket
  -- the descriptor of `m_idleFd` is taken by the connection, and by `/dev/null` again
  have hback : Function.update (Function.update s.fds s.idleFd none) s.idleFd (some .idle) = s.fds := by
    rw [Function.update_idem, ← hidle, Function.update_eq_self]
  have hfails : s.step (.handleRead none) = .ok { s with place := .closeIdle } := by
    simp [step, hplace, handleRead, accept, hsocket, hfull]
  have hcloses : step { s with place := .closeIdle } (.proceed none) = .ok { s with
      fds := Function.update s.fds s.idleFd none, place := .acceptIdle,
      closed := s.closed ++ [(s.idleFd, some .idle)] } := by
    simp [step, proceed, close, hidle]
  have haccepts : step { s with
      fds := Function.update s.fds s.idleFd none, place := .acceptIdle,
      closed := s.closed ++ [(s.idleFd, some .idle)] } (.proceed none) = .ok { s with
      fds := Function.update s.fds s.idleFd (some (.accepted n)), backlog := backlog, place := .closeAccepted,
      closed := s.closed ++ [(s.idleFd, some .idle)] } := by
    simp [step, proceed, accept, hlowest, hne, hsocket, hbacklog]
  have hcloses' : step { s with
      fds := Function.update s.fds s.idleFd (some (.accepted n)), backlog := backlog, place := .closeAccepted,
      closed := s.closed ++ [(s.idleFd, some .idle)] } (.proceed none) = .ok { s with
      fds := Function.update s.fds s.idleFd none, backlog := backlog, place := .openIdle,
      closed := s.closed ++ [(s.idleFd, some .idle), (s.idleFd, some (.accepted n))] } := by
    simp [step, proceed, close]
  have hopens : step { s with
      fds := Function.update s.fds s.idleFd none, backlog := backlog, place := .openIdle,
      closed := s.closed ++ [(s.idleFd, some .idle), (s.idleFd, some (.accepted n))] } (.proceed none) = .ok { s with
      backlog := backlog, closed := s.closed ++ [(s.idleFd, some .idle), (s.idleFd, some (.accepted n))] } := by
    simp [step, proceed, openFd, hlowest, hback, hplace]
  rw [fullCall, Machine.run_cons_ok hfails, List.replicate_succ, Machine.run_cons_ok hcloses, List.replicate_succ,
    Machine.run_cons_ok haccepts, List.replicate_succ, Machine.run_cons_ok hcloses', List.replicate_succ,
    Machine.run_cons_ok hopens, List.replicate_zero, Machine.run_nil]

/-- As many calls as connections wait. -/
lemma run_fullCalls (hplace : s.place = .outside) (hsocket : s.fds s.acceptFd = some .acceptSocket)
    (hnonneg : 0 ≤ s.idleFd) (hlt : s.idleFd < s.limit) (hidle : s.fds s.idleFd = some .idle)
    (hfull : Handles.lowest s.limit s.fds = none) :
    Machine.run step s (List.replicate s.backlog.length fullCall).flatten = .ok { s with
      backlog := []
      closed := s.closed ++ s.backlog.flatMap fun n => [(s.idleFd, some .idle), (s.idleFd, some (.accepted n))] } := by
  induction hbacklog : s.backlog generalizing s with
  | nil =>
      simp only [List.length_nil, List.replicate_zero, List.flatten_nil, List.flatMap_nil, List.append_nil,
        Machine.run_nil]
      rw [← hbacklog]
  | cons n backlog ih =>
      have hcall := run_fullCall hplace hsocket hnonneg hlt hidle hfull hbacklog
      have hrest := ih (s := { s with
        backlog := backlog, closed := s.closed ++ [(s.idleFd, some .idle), (s.idleFd, some (.accepted n))] })
        hplace hsocket hnonneg hlt hidle hfull rfl
      rw [List.length_cons, List.replicate_succ, List.flatten_cons, Machine.run_append hcall, hrest]
      simp

/-- **A full table does not keep the connections waiting.**  In a run in which nobody takes the descriptor that the
acceptor gives up, and `/dev/null` can be opened again, `m_idleFd` is open whenever the acceptor is outside
`handleRead`.  If then no descriptor is free, `handleRead` takes one connection in each call, and closes it, until
none waits; and the table is as before. -/
theorem full_table_drains {limit : ℕ} {fds : ℤ → Option Descriptor} {callback : Bool}
    {failure failure' : Option Errno} {s₀ : Acceptor} {as : List Action} (hothers : Others limit fds)
    (hcreate : create limit fds callback failure failure' = some s₀)
    (hundisturbed : ∀ p ∈ Machine.steps step s₀ as, p.1.Undisturbed p.2) :
    ∀ t ∈ Machine.states step s₀ as, t.place = .outside → t.fds t.idleFd = some .idle ∧
      (t.fds t.acceptFd = some .acceptSocket → Handles.lowest t.limit t.fds = none →
        Machine.run step t (List.replicate t.backlog.length fullCall).flatten = .ok { t with
          backlog := []
          closed := t.closed
            ++ t.backlog.flatMap fun n => [(t.idleFd, some .idle), (t.idleFd, some (.accepted n))] }) := by
  intro t ht hplace
  obtain ⟨hkept₀, hidleFd₀, hplace₀, -, -⟩ := create_kept hothers hcreate
  have hready₀ : s₀.Ready := by
    rw [Ready, hplace₀]
    exact hidleFd₀
  obtain ⟨hkept, hready⟩ := Machine.states_invariant_of_steps (I := fun t => t.Kept ∧ t.Ready)
    (fun s a s' h hC hok => ⟨h.1.step hok, h.2.step h.1 hC hok⟩) ⟨hkept₀, hready₀⟩ hundisturbed t ht
  rw [Ready, hplace] at hready
  have hidle := hkept.lookup_idle (by simp [hplace, Place.HasIdle]) hready
  exact ⟨hidle, fun hsocket hfull =>
    run_fullCalls hplace hsocket hready (hkept.range t.idleFd _ hidle).2 hidle hfull⟩

/-- Two connections, and no descriptor is left for them. -/
theorem full_table_drains_busy :
    ∃ s₀ t, create 6 busy true none none = some s₀ ∧ Machine.run step s₀ [.arrive 1, .arrive 2] = .ok t ∧
      t.backlog = [1, 2] ∧ ∃ u, Machine.run step t (List.replicate 2 fullCall).flatten = .ok u ∧
        u.fds = t.fds ∧ u.backlog = [] := by
  have hrun : ((create 6 busy true none none).map fun s₀ => (Machine.run step s₀ [.arrive 1, .arrive 2]).map fun t =>
      (t.place, t.backlog, decide (t.fds t.acceptFd = some .acceptSocket ∧ Handles.lowest t.limit t.fds = none)))
      = some (.ok (.outside, [1, 2], true)) := by
    decide +kernel
  obtain ⟨s₀, t, hcreate, hrun, hobs⟩ := created_of_map hrun
  obtain ⟨hplace, hbacklog, hsocket, hfull⟩ : t.place = .outside ∧ t.backlog = [1, 2] ∧
      t.fds t.acceptFd = some .acceptSocket ∧ Handles.lowest t.limit t.fds = none := by
    simpa using hobs
  have hundisturbed : ∀ p ∈ Machine.steps step s₀ [.arrive 1, .arrive 2], p.1.Undisturbed p.2 := by
    intro p hp _
    have haction := Machine.action_of_mem_steps hp
    simp only [List.mem_cons, List.not_mem_nil, or_false] at haction
    rcases haction with haction | haction
    · simp [haction]
    · simp [haction]
  obtain ⟨-, hdrains⟩ := full_table_drains (others_busy (by decide)) hcreate hundisturbed t
    (Machine.mem_states_of_run hrun) hplace
  have hcalls := hdrains hsocket hfull
  rw [hbacklog] at hcalls
  exact ⟨s₀, t, hcreate, hrun, hbacklog, _, hcalls, rfl, rfl⟩

/-! ## Without the descriptor -/

/-- No descriptor is free, and the acceptor has none to give up. -/
structure Stuck (s : Acceptor) : Prop where
  idleFd : s.idleFd = -1
  full : Handles.lowest s.limit s.fds = none
  place : s.place = .outside ∨ s.place = .closeIdle ∨ s.place.Gap

lemma Kept.close_neg (h : s.Kept) : (s.close (-1)).fds = s.fds := by
  rw [close, ← h.lookup_neg]
  exact Function.update_eq_self ..

lemma Stuck.proceed (h : s.Stuck) (hkept : s.Kept) {failure : Option Errno} (hok : s.proceed failure = .ok s') :
    s'.Stuck ∧ s'.fds = s.fds ∧ s'.backlog = s.backlog := by
  have hplaces := h.place
  have hfds := hkept.close_neg
  rw [← h.idleFd] at hfds
  have hfull : ∀ fd : ℤ, 0 ≤ fd → fd < s.limit → s.fds fd ≠ none := Handles.lowest_eq_none_iff.mp h.full
  cases proceeds_of_ok hok with
  | closeIdle hplace =>
      exact ⟨⟨h.idleFd, by rw [← h.full]; exact congrArg _ hfds, by simp [Place.Gap]⟩, hfds, rfl⟩
  | acceptFails hplace => exact ⟨⟨rfl, h.full, by simp [Place.Gap]⟩, rfl, rfl⟩
  | closeAccepted hplace =>
      exact ⟨⟨h.idleFd, by rw [← h.full]; exact congrArg _ hfds, by simp [Place.Gap]⟩, hfds, rfl⟩
  | openFails errno hplace => exact ⟨⟨rfl, h.full, by simp⟩, rfl, rfl⟩
  | acceptIdle fd n backlog hplace hnonneg hlt hfree => exact absurd hfree (hfull fd hnonneg hlt)
  | openIdle fd hplace hnonneg hlt hfree => exact absurd hfree (hfull fd hnonneg hlt)
  | handOver connFd hplace | refuse connFd hplace | closeSocket hplace => simp [hplace, Place.Gap] at hplaces

/-- As long as nobody closes a descriptor, connections come and none is taken. -/
lemma Stuck.step (h : s.Stuck) (hkept : s.Kept) (hclose : ∀ fd, a ≠ .closeFd fd) (hdestroy : a ≠ .destroy)
    (hok : s.step a = .ok s') : s'.Stuck ∧ s'.fds = s.fds ∧ s'.backlog = s.backlog ++ s.arrival a := by
  cases a with
  | arrive n =>
      rw [← Except.ok.inj hok]
      exact ⟨⟨h.idleFd, h.full, h.place⟩, rfl, rfl⟩
  | handleRead failure =>
      rw [Acceptor.step, guard_eq_ok, Except.ok.injEq] at hok
      obtain ⟨-, rfl⟩ := hok
      rcases s.handleRead_spec failure with heq | ⟨heq, -⟩ | ⟨fd, -, -, hnonneg, hlt, hfree, -⟩
      · rw [heq]
        exact ⟨h, rfl, (List.append_nil _).symm⟩
      · rw [heq]
        exact ⟨⟨h.idleFd, h.full, by simp⟩, rfl, (List.append_nil _).symm⟩
      · exact absurd hfree (Handles.lowest_eq_none_iff.mp h.full fd hnonneg hlt)
  | proceed failure => simpa [arrival] using h.proceed hkept hok
  | destroy => exact absurd rfl hdestroy
  | openFd =>
      rw [← Except.ok.inj hok, openFd_full h.full]
      exact ⟨h, rfl, (List.append_nil _).symm⟩
  | closeFd fd => exact absurd rfl (hclose fd)

/-- `m_idleFd` is -1; and while `handleRead` tries to get it back, no descriptor is free. -/
structure Lost (s : Acceptor) : Prop where
  idleFd : s.idleFd = -1
  full : s.place = .closeIdle ∨ s.place.Gap → Handles.lowest s.limit s.fds = none

/-- Nobody closes a descriptor while `handleRead` tries to get `m_idleFd` back, and `EMFILE` comes of a full table. -/
def Unhelped (s : Acceptor) (a : Action) : Prop :=
  (s.place = .closeIdle ∨ s.place.Gap → ∀ fd, a ≠ .closeFd fd) ∧ a ≠ .handleRead (some EMFILE)

lemma Lost.step (h : s.Lost) (hkept : s.Kept) (hunhelped : s.Unhelped a) (hok : s.step a = .ok s') : s'.Lost := by
  -- while `handleRead` tries to get it back nothing can be opened; elsewhere `m_idleFd` does not change
  by_cases hgap : s.place = .closeIdle ∨ s.place.Gap
  · have hdestroy : a ≠ .destroy := by
      rintro rfl
      rw [Acceptor.step, guard_eq_ok] at hok
      simp [hok.1, Place.Gap] at hgap
    have hstuck : s.Stuck := ⟨h.idleFd, h.full hgap, Or.inr hgap⟩
    obtain ⟨hstuck', -, -⟩ := hstuck.step hkept (hunhelped.1 hgap) hdestroy hok
    exact ⟨hstuck'.idleFd, fun _ => hstuck'.full⟩
  · cases a with
    | arrive n =>
        rw [← Except.ok.inj hok]
        exact ⟨h.idleFd, h.full⟩
    | handleRead failure =>
        rw [Acceptor.step, guard_eq_ok, Except.ok.injEq] at hok
        obtain ⟨hplace, rfl⟩ := hok
        rcases s.handleRead_spec failure with heq | ⟨heq, hemfile⟩ | ⟨fd, n, backlog, -, -, -, -, heq⟩
        · rwa [heq]
        · rw [heq]
          have hfailure : failure ≠ some EMFILE := fun hfailure => hunhelped.2 (by rw [hfailure])
          have hfull := accept_emfile hfailure hemfile
          exact ⟨h.idleFd, fun _ => hfull⟩
        · rw [heq]
          exact ⟨h.idleFd, by simp [Place.Gap]⟩
    | proceed failure =>
        cases proceeds_of_ok hok with
        | handOver connFd hplace =>
            rw [handOver]
            split
            · exact ⟨h.idleFd, by simp [Place.Gap]⟩
            · exact ⟨h.idleFd, by simp [Place.Gap]⟩
        | refuse connFd hplace => exact ⟨h.idleFd, by simp [Place.Gap]⟩
        | closeSocket hplace => exact ⟨h.idleFd, by simp [Place.Gap]⟩
        | closeIdle hplace | acceptFails hplace | acceptIdle _ _ _ hplace | closeAccepted hplace
        | openFails _ hplace | openIdle _ hplace => simp [hplace, Place.Gap] at hgap
    | destroy =>
        rw [Acceptor.step, guard_eq_ok, Except.ok.injEq] at hok
        rw [← hok.2]
        exact ⟨h.idleFd, by simp [Place.Gap]⟩
    | openFd =>
        rw [← Except.ok.inj hok]
        rcases s.openFd_spec .other none with ⟨errno, heq⟩ | ⟨fd, -, -, -, heq⟩
        · rwa [heq]
        · rw [heq]
          exact ⟨h.idleFd, fun hplace => absurd hplace hgap⟩
    | closeFd fd =>
        rw [(closeFd_ok hok).2]
        exact ⟨h.idleFd, fun hplace => absurd hplace hgap⟩

/-- Another thread takes the descriptor that the acceptor gives up. -/
def taken : List Action := [.handleRead none, .proceed none, .openFd] ++ List.replicate 3 (.proceed none)

/-- **Once it is lost, `m_idleFd` does not come back.**  From a state outside `handleRead` in which it is -1, it is -1
in every state of every run, unless somebody closes a descriptor just while `handleRead` tries to get it back.  And
if no descriptor is free, then as long as nobody closes one the calls of `handleRead` take no connection: those that
come wait behind those that already do. -/
theorem lost_for_good {limit : ℕ} {fds : ℤ → Option Descriptor} {callback : Bool} {failure failure' : Option Errno}
    {s₀ t : Acceptor} {as : List Action} (hothers : Others limit fds)
    (hcreate : create limit fds callback failure failure' = some s₀) (hrun : Machine.run step s₀ as = .ok t)
    (hplace : t.place = .outside) (hlost : t.idleFd = -1) (as' : List Action) :
    ((∀ p ∈ Machine.steps step t as', p.1.Unhelped p.2) → ∀ u ∈ Machine.states step t as', u.idleFd = -1) ∧
      (Handles.lowest t.limit t.fds = none →
        (∀ p ∈ Machine.steps step t as', (∀ fd, p.2 ≠ .closeFd fd) ∧ p.2 ≠ .destroy) →
        ∀ u, Machine.run step t as' = .ok u → u.fds = t.fds ∧
          u.backlog = t.backlog ++ Machine.collect arrival (Machine.steps step t as')) := by
  have hkept : t.Kept := Machine.run_invariant (I := Kept) (fun s a s' h hok => h.step hok)
    (create_kept hothers hcreate).1 hrun
  refine ⟨fun hunhelped u hu => ?_, fun hfull hquiet u hrun' => ⟨?_, ?_⟩⟩
  · have hstart : t.Kept ∧ t.Lost := ⟨hkept, hlost, by simp [hplace, Place.Gap]⟩
    exact (Machine.states_invariant_of_steps (I := fun u : Acceptor => u.Kept ∧ u.Lost)
      (fun s a s' h hC hok => ⟨h.1.step hok, h.2.step h.1 hC hok⟩) hstart hunhelped u hu).2.idleFd
  · have hstart : t.Kept ∧ t.Stuck ∧ t.fds = t.fds := ⟨hkept, ⟨hlost, hfull, Or.inl hplace⟩, rfl⟩
    refine (Machine.states_invariant_of_steps (I := fun u : Acceptor => u.Kept ∧ u.Stuck ∧ u.fds = t.fds)
      (C := fun _ a => (∀ fd, a ≠ .closeFd fd) ∧ a ≠ .destroy) (fun s a s' h hC hok => ?_) hstart hquiet u
      (Machine.mem_states_of_run hrun')).2.2
    obtain ⟨hstuck, hfds, -⟩ := h.2.1.step h.1 hC.1 hC.2 hok
    exact ⟨h.1.step hok, hstuck, hfds.trans h.2.2⟩
  · have hfifo := Machine.run_fifo_of_steps backlog arrival (fun _ _ => []) (I := fun u : Acceptor => u.Kept ∧ u.Stuck)
      (C := fun _ a => (∀ fd, a ≠ .closeFd fd) ∧ a ≠ .destroy) (fun s a s' h hC hok => ?_)
      ⟨hkept, ⟨hlost, hfull, Or.inl hplace⟩⟩ hquiet hrun'
    · rw [hfifo, Machine.collect_none, List.nil_append]
    · obtain ⟨hstuck, -, hbacklog⟩ := h.2.step h.1 hC.1 hC.2 hok
      exact ⟨⟨h.1.step hok, hstuck⟩, hbacklog.symm⟩

/-- A connection that waits. -/
theorem lost_for_good_taken :
    ∃ s₀ t u, create 6 busy true none none = some s₀ ∧ Machine.run step s₀ taken = .ok t ∧
      Machine.run step t (.arrive 1 :: fullCall) = .ok u ∧ u.idleFd = -1 ∧ u.fds = t.fds := by
  have hrun : ((create 6 busy true none none).map fun s₀ => (Machine.run step s₀ taken).map fun t =>
      (t.place, t.idleFd, Handles.lowest t.limit t.fds)) = some (.ok (.outside, -1, none)) := by
    decide +kernel
  obtain ⟨s₀, t, hcreate, hrun, hobs⟩ := created_of_map hrun
  obtain ⟨hplace, hidleFd, hfull⟩ : t.place = .outside ∧ t.idleFd = -1 ∧ Handles.lowest t.limit t.fds = none := by
    simpa using hobs
  have hrun' : ((create 6 busy true none none).map fun s₀ =>
      (Machine.run step s₀ (taken ++ .arrive 1 :: fullCall)).map fun u => u.backlog) = some (.ok [1]) := by
    decide +kernel
  obtain ⟨s₀', u, hcreate', hrun', -⟩ := created_of_map hrun'
  obtain rfl : s₀ = s₀' := Option.some.inj (hcreate.symm.trans hcreate')
  rw [Machine.run_append hrun] at hrun'
  have hquiet : ∀ a ∈ Action.arrive 1 :: fullCall,
      (∀ fd, a ≠ .closeFd fd) ∧ a ≠ .destroy ∧ a ≠ .handleRead (some EMFILE) := by
    simp [fullCall]
  obtain ⟨hlost, hwaits⟩ :=
    lost_for_good (others_busy (by decide)) hcreate hrun hplace hidleFd (.arrive 1 :: fullCall)
  refine ⟨s₀, t, u, hcreate, hrun, hrun', hlost (fun p hp => ?_) u (Machine.mem_states_of_run hrun'),
    (hwaits hfull (fun p hp => ?_) u hrun').1⟩
  · obtain ⟨hclose, -, hfailure⟩ := hquiet p.2 (Machine.action_of_mem_steps hp)
    exact ⟨fun _ => hclose, hfailure⟩
  · obtain ⟨hclose, hdestroy, -⟩ := hquiet p.2 (Machine.action_of_mem_steps hp)
    exact ⟨hclose, hdestroy⟩

end Acceptor

end Seenet
