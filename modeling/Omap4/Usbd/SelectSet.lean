import Mathlib.Data.Finset.Option
import Omap4.Usbd.Lock

/-!
# Omap4.Usbd.SelectSet — the descriptors that the loop waits for

The set given to `select`, the application's descriptor and `max_fd` are three variables, and every
place that connects or removes an application writes all of them.  `SelectOk` says what they have to
do with each other.  Connecting (`usbdSaveSocketFd`) and removing (`clearApp`) restore it; the other
operations of the daemon do not touch the three, so the rules of `Omap4.Usbd.Handlers` carry it
through every handler.

Removing the application must not remove a descriptor of the daemon itself.  It does not, because
`accept` never returns a descriptor that is open (`freshFd`).
-/

namespace Omap4.Usbd

variable {e : Env} {s : State}

/-- The descriptors that are open as long as the daemon runs. -/
def Env.ownFds (e : Env) : Finset ℕ := {e.ueventSock, e.usbDeviceFd} ∪ e.usbdServerFd.toFinset

def SelectOk (e : Env) (s : State) : Prop :=
  s.connectedAppsFd = e.ownFds ∪ s.usbdAppFd.toFinset ∧ s.maxFd = usbdGetMaxfd e s ∧
    (∀ fd ∈ s.accepted, fd ∉ e.ownFds) ∧ ∀ fd, s.usbdAppFd = some fd → fd ∈ s.accepted

theorem not_mem_ownFds {fd : ℕ} (h : freshFd e s fd = true) : fd ∉ e.ownFds := by
  simp only [freshFd, Bool.and_eq_true, decide_eq_true_eq] at h
  obtain ⟨⟨⟨hu, hd⟩, hs⟩, -⟩ := h
  simp only [Env.ownFds, Finset.mem_union, Finset.mem_insert, Finset.mem_singleton,
    Option.mem_toFinset, Option.mem_def, not_or]
  exact ⟨⟨hu, hd⟩, fun h => hs h.symm⟩

theorem le_usbdGetMaxfd (e : Env) (s : State) :
    ∀ fd ∈ e.ownFds ∪ s.usbdAppFd.toFinset, fd ≤ usbdGetMaxfd e s := by
  intro fd hfd
  simp only [Env.ownFds, Finset.mem_union, Finset.mem_insert, Finset.mem_singleton,
    Option.mem_toFinset, Option.mem_def] at hfd
  unfold usbdGetMaxfd
  obtain ((rfl | rfl) | hs) | ha := hfd
  · omega
  · omega
  · rw [hs, Option.getD_some]
    omega
  · rw [ha, Option.getD_some]
    omega

/-! ## Connecting and removing an application -/

theorem clearApp_selectOk {fd : ℕ} (h : SelectOk e s) (hfd : s.usbdAppFd = some fd) :
    SelectOk e (clearApp e fd s) := by
  obtain ⟨hset, -, hown, happ⟩ := h
  refine ⟨?_, rfl, hown, fun _ h => by cases h⟩
  show s.connectedAppsFd.erase fd = e.ownFds ∪ ∅
  rw [hset, hfd, Option.toFinset_some, Finset.union_empty, Finset.union_comm, ← Finset.insert_eq]
  exact Finset.erase_insert (hown fd (happ fd hfd))

/-- A second client is accepted, but not watched. -/
theorem save_selectOk {a : AcceptInput} (h : SelectOk e s) (ha : a.newfd ∉ e.ownFds) :
    SelectOk e (State.updateMaxfd e
      (usbdSaveSocketFd a.newfd { s with accepted := s.accepted ++ [a.newfd] })) := by
  obtain ⟨hset, hmax, hown, happ⟩ := h
  have hown' : ∀ fd ∈ s.accepted ++ [a.newfd], fd ∉ e.ownFds := by
    intro fd hfd
    obtain hfd | hfd := List.mem_append.mp hfd
    · exact hown fd hfd
    · rw [List.mem_singleton.mp hfd]
      exact ha
  unfold usbdSaveSocketFd
  split
  · next hnone =>
    have hnone' : s.usbdAppFd = none := hnone
    refine ⟨?_, rfl, hown', ?_⟩
    · show insert a.newfd s.connectedAppsFd = e.ownFds ∪ {a.newfd}
      rw [hset, hnone', Option.toFinset_none, Finset.union_empty, Finset.union_comm,
        ← Finset.insert_eq]
    · rintro fd ⟨⟩
      exact List.mem_append_right _ (List.mem_singleton_self _)
  · exact ⟨hset, rfl, hown', fun fd hfd => List.mem_append_left _ (happ fd hfd)⟩

theorem setCable_selectOk (c : Cable) (h : SelectOk e s) : SelectOk e (setCable c s) := by
  unfold setCable
  split_ifs <;> exact h

/-- The other operations of the daemon leave the three variables alone. -/
theorem stable_selectOk (e : Env) : Stable e True True (SelectOk e) where
  frame h := h
  setMode h _ _ := by
    unfold usbdSetUsbMode
    split_ifs <;> exact h
  enableDone h := h
  clear h hfd _ := clearApp_selectOk h hfd

/-! ## The loop -/

theorem iterate_selectOk {i : Iter} (hi : ∀ a, i.accept = some a → a.newfd ∉ e.ownFds)
    (h : SelectOk e s) : SelectOk e (iterate e s i) := by
  refine iterate_rule (fun fd t hfd ht => ?_) (beforeApp_rule (fun _ hs => ?_) (fun d _ _ ht => ?_)
    (fun a t ha ht => ?_) h)
  · exact (stable_selectOk e).handleApp trivial hfd ht (fun _ => ht) ht
  · exact (stable_selectOk e).handleUevent (fun _ => trivial) (fun _ _ => trivial)
      (fun c _ => setCable_selectOk c hs) hs
  · exact (stable_selectOk e).handleDevice (fun _ => trivial) (fun _ _ => trivial) ht
  · exact (stable_selectOk e).handleAccept (save_selectOk ht (hi a ha))

theorem boot_selectOk {sysfs : Sysfs} {b : BootInput} (h : boot e sysfs b = some s) :
    SelectOk e s := by
  obtain ⟨c, -, rfl⟩ := Option.map_eq_some_iff.mp h
  have hinit : SelectOk e (initState e c sysfs) := by
    refine ⟨?_, ?_, fun _ => List.not_mem_nil.elim, fun _ h => by cases h⟩
    · simp only [initState, Env.ownFds, Env.usbdServerFd]
      split_ifs <;> simp
    · simp [initState, usbdGetMaxfd]
  exact (stable_selectOk e).bootMode (fun _ => trivial) hinit

/-- **The set that `select` waits for**, in every state at the top of the loop: it holds the
descriptors of the daemon and the application that is connected, and nothing else; `max_fd` is no
less than any of them. So the connected application is watched, and no connection that was removed
or turned away. -/
theorem select_set {e : Env} {sysfs : Sysfs} {b : BootInput} {l : List Iter} {s : State}
    (h : run e sysfs b l = some s) :
    s.connectedAppsFd = {e.ueventSock, e.usbDeviceFd} ∪ e.usbdServerFd.toFinset ∪
    s.usbdAppFd.toFinset ∧
    (∀ fd ∈ s.connectedAppsFd, fd ≤ s.maxFd) ∧
    (∀ fd, s.usbdAppFd = some fd → fd ∈ s.connectedAppsFd) ∧
    (∀ fd ∈ s.accepted, s.usbdAppFd ≠ some fd → fd ∉ s.connectedAppsFd) := by
  have hok : SelectOk e s := by
    obtain ⟨s₀, hb, hrun⟩ := Option.bind_eq_some_iff.mp h
    refine Machine.exec_inv (P := SelectOk e) (fun t i t' ht hstep => ?_) (boot_selectOk hb) hrun
    rw [step_eq_some hstep]
    exact iterate_selectOk (fun a ha => not_mem_ownFds (step_fresh hstep ha)) ht
  obtain ⟨hset, hmax, hown, happ⟩ := hok
  refine ⟨hset, ?_, ?_, ?_⟩
  · rw [hset, hmax]
    exact le_usbdGetMaxfd e s
  · intro fd hfd
    rw [hset, hfd, Option.toFinset_some]
    exact Finset.mem_union_right _ (Finset.mem_singleton_self fd)
  · intro fd hacc hne
    rw [hset, Finset.mem_union, Option.mem_toFinset, Option.mem_def, not_or]
    exact ⟨hown fd hacc, hne⟩

/-- Two clients connect, and the first one closes its connection. -/
theorem select_set_second_client :
    ∃ s, run normalEnv sysfsOff ⟨some '1', "0".toList, "0".toList⟩
        [acceptIter 6, acceptIter 7, { requestIter 6 [] with app := ⟨.eof, true, true⟩ }] = some s ∧
      s.usbdAppFd = none ∧ s.connectedAppsFd = {3, 4, 5} ∧ 7 ∉ s.connectedAppsFd := by
  obtain ⟨s, hrun, happ, hacc⟩ : ∃ s, run normalEnv sysfsOff ⟨some '1', "0".toList, "0".toList⟩
      [acceptIter 6, acceptIter 7, { requestIter 6 [] with app := ⟨.eof, true, true⟩ }] = some s ∧
      s.usbdAppFd = none ∧ s.accepted = [6, 7] := ⟨_, rfl, rfl, rfl⟩
  have hok := select_set hrun
  refine ⟨s, hrun, happ, ?_, hok.2.2.2 7 (by simp [hacc]) (by simp [happ])⟩
  rw [hok.1, happ]
  rfl

end Omap4.Usbd
