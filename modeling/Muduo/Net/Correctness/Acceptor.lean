import Mathlib.Data.Finset.Option
import Muduo.Net.Acceptor

/-!
# `Net.Correctness.Acceptor` — whose descriptors there are, and what becomes of a connection

The descriptors of the process are those of the others, the listening socket, and the spare one if the acceptor has it
(`spare`): nothing leaks, and nobody closes what belongs to somebody else. The spare one is lost only when somebody
else makes a descriptor between the system calls of `handleRead`; if that does not happen, then each call at a full
table closes the connection that is first in the queue when it gets to it.
-/

namespace Muduo.Net

open Lib

namespace Acceptor

variable {s s' : Acceptor}

/-- The descriptor that `idleFd_` stands for; between two calls it may be one that is closed. -/
def spare (s : Acceptor) : Option Nat :=
  match s.point with
  | .accepting | .opening => none
  | .idle | .full | .closing _ => s.idleFd

/-- The connection that was accepted in place of the spare descriptor. -/
def current (s : Acceptor) : List Nat :=
  match s.point with
  | .closing id => id.toList
  | _ => []

/-- Who has which descriptor. -/
structure Owned (s : Acceptor) : Prop where
  used : s.fds.used = insert s.acceptSocket (s.spare.toFinset ∪ s.others)
  socket : s.acceptSocket ∉ s.others
  spare_ne : s.spare ≠ some s.acceptSocket
  spare_not_mem : ∀ fd, s.spare = some fd → fd ∉ s.others

/-- What became of the connections. -/
structure Accounted (s : Acceptor) : Prop where
  all : (s.backlog ++ s.current ++ s.handedOver ++ s.closed ++ s.gone).Perm (List.range s.arrived)
  order : (s.handedOver ++ s.backlog).Pairwise (· < ·)

structure Inv (s : Acceptor) : Prop extends Owned s, Accounted s

/-! ## The descriptors -/

/-- A new descriptor is nobody's. -/
theorem Owned.alloc_fresh (h : s.Owned) {fd : Nat} {fds : Descriptors} (ha : s.fds.alloc = some (fd, fds)) :
    fd ≠ s.acceptSocket ∧ s.spare ≠ some fd ∧ fd ∉ s.others ∧
      fds.used = insert fd (insert s.acceptSocket (s.spare.toFinset ∪ s.others)) := by
  obtain ⟨hfree, hused, -⟩ := Descriptors.alloc_spec ha
  rw [h.used] at hfree hused
  simp only [Finset.mem_insert, Finset.mem_union, Option.mem_toFinset, not_or] at hfree
  exact ⟨hfree.1, hfree.2.1, hfree.2.2, hused⟩

/-- Somebody else makes a descriptor. -/
theorem Owned.take (h : s.Owned) {fd : Nat} {fds : Descriptors} (ha : s.fds.alloc = some (fd, fds)) :
    Owned { s with fds, others := insert fd s.others } := by
  obtain ⟨hsock, hspare, -, hused⟩ := h.alloc_fresh ha
  refine ⟨?_, ?_, h.spare_ne, ?_⟩
  · show fds.used = insert s.acceptSocket (s.spare.toFinset ∪ insert fd s.others)
    rw [hused, Finset.union_insert, Finset.insert_comm]
  · simpa [hsock.symm] using h.socket
  · intro k hk
    have hne : k ≠ fd := by
      rintro rfl
      exact hspare hk
    simpa [hne] using h.spare_not_mem k hk

/-- Somebody else closes a descriptor. -/
theorem Owned.drop (h : s.Owned) {fd : Nat} (hfd : fd ∈ s.others) :
    Owned { s with fds := s.fds.close fd, others := s.others.erase fd } := by
  have hsock : s.acceptSocket ≠ fd := by
    rintro rfl
    exact h.socket hfd
  refine ⟨?_, fun hmem => h.socket (Finset.mem_of_mem_erase hmem), h.spare_ne,
    fun k hk hmem => h.spare_not_mem k hk (Finset.mem_of_mem_erase hmem)⟩
  show s.fds.used.erase fd = insert s.acceptSocket (s.spare.toFinset ∪ s.others.erase fd)
  rw [h.used, Finset.erase_insert_of_ne hsock, Finset.erase_union_distrib]
  congr 1
  congr 1
  rw [Finset.erase_eq_of_notMem]
  intro hmem
  exact h.spare_not_mem fd (Option.mem_toFinset.mp hmem) hfd

theorem close_some {fd : Nat} (h : fd ∉ s.others) : s.close (some fd) = .ok { s with fds := s.fds.close fd } :=
  if_neg h

/-- The acceptor closes the spare descriptor, if it has one. -/
theorem Owned.closeSpare (h : s.Owned) (hspare : s.spare = s.idleFd) :
    ∃ fds : Descriptors, s.close s.idleFd = .ok { s with fds } ∧ fds.limit = s.fds.limit ∧
      fds.used = insert s.acceptSocket s.others := by
  rcases Option.eq_none_or_eq_some s.idleFd with hidle | ⟨fd, hidle⟩
  · refine ⟨s.fds, congrArg s.close hidle, rfl, ?_⟩
    rw [h.used, hspare, hidle]
    simp
  · have hfd := h.spare_not_mem fd (hspare.trans hidle)
    refine ⟨s.fds.close fd, (congrArg s.close hidle).trans (close_some hfd), rfl, ?_⟩
    have hsock : s.acceptSocket ≠ fd := by
      rintro rfl
      exact h.spare_ne (hspare.trans hidle)
    rw [Descriptors.close_used, h.used, hspare, hidle, Finset.erase_insert_of_ne hsock]
    congr 1
    ext k
    have : k ∈ s.others → k ≠ fd := by
      rintro hk rfl
      exact hfd hk
    simp only [Finset.mem_erase, Finset.mem_union, Option.mem_toFinset, Option.mem_def, Option.some.injEq]
    grind

/-! ## What `accept4` does -/

/-- The cases of `accept4`. -/
inductive Accepts (s : Acceptor) : Except AcceptErrno (Nat × Nat) × Acceptor → Prop where
  | failed {e} : Accepts s (.error e, s)
  | accepted {id fd fds backlog} : s.fds.alloc = some (fd, fds) → s.backlog = id :: backlog →
      Accepts s (.ok (id, fd), { s with fds, backlog })

theorem accept4_cases (s : Acceptor) (reason : Option AcceptErrno) : Accepts s (s.accept4 reason) := by
  unfold accept4
  split
  · exact .failed
  · next ha =>
      split
      · exact .failed
      · exact .failed
      · next hb => exact .accepted ha hb

/-- An expected failure is no reason to end the process. -/
theorem accept_eq {reason : Option AcceptErrno} (h : Expected reason) : s.accept reason = .ok (s.accept4 reason) := by
  unfold accept accept4
  cases s.fds.alloc with
  | none => rfl
  | some _ =>
      cases reason with
      | none => cases s.backlog <;> rfl
      | some e => cases e <;> first | rfl | exact h.elim

/-! ## Steps -/

/-- A connection comes into the queue. -/
theorem Accounted.arrive (h : s.Accounted) :
    Accounted { s with backlog := s.backlog ++ [s.arrived], arrived := s.arrived + 1 } := by
  have hlt : ∀ id ∈ s.handedOver ++ s.backlog, id < s.arrived := by
    intro id hid
    apply List.mem_range.mp
    apply h.all.mem_iff.mp
    simp only [List.mem_append] at hid ⊢
    tauto
  refine ⟨?_, ?_⟩
  · rw [List.range_succ]
    refine List.Perm.trans ?_ (h.all.append_right [s.arrived])
    rw [List.perm_iff_count]
    intro k
    simp only [current, List.count_append]
    omega
  · show (s.handedOver ++ (s.backlog ++ [s.arrived])).Pairwise (· < ·)
    rw [← List.append_assoc, List.pairwise_append]
    exact ⟨h.order, List.pairwise_singleton _ _, fun id hid k hk => List.mem_singleton.mp hk ▸ hlt id hid⟩

/-- A connection leaves the queue unaccepted. -/
theorem Accounted.leave (h : s.Accounted) {id : Nat} (hid : id ∈ s.backlog) :
    Accounted { s with backlog := s.backlog.erase id, gone := s.gone ++ [id] } := by
  refine ⟨List.Perm.trans ?_ h.all, h.order.sublist (List.Sublist.append_left List.erase_sublist _)⟩
  rw [List.perm_iff_count]
  intro k
  have hpos := List.count_pos_iff.mpr hid
  simp only [current, List.count_append, List.count_erase, List.count_singleton]
  by_cases hk : id = k
  · subst hk
    simp
    omega
  · simp [hk]

/-- The connection at the head of the queue is in the hands of the acceptor. -/
theorem Accounted.head (h : s.Accounted) {id : Nat} {backlog : List Nat} (hb : s.backlog = id :: backlog) :
    (id :: backlog ++ s.current ++ s.handedOver ++ s.closed ++ s.gone).Perm (List.range s.arrived) ∧
      (s.handedOver ++ id :: backlog).Pairwise (· < ·) ∧ (s.handedOver ++ backlog).Pairwise (· < ·) := by
  have horder := h.order
  rw [hb] at horder
  exact ⟨hb ▸ h.all, horder, horder.sublist (List.Sublist.append_left (List.sublist_cons_self _ _) _)⟩

theorem Inv.handleRead (h : s.Inv) {reason : Option AcceptErrno} (hpoint : s.point = .idle)
    (hexp : Expected reason) : Safe (s.handleRead reason) Inv := by
  have hcurrent : s.current = [] := by simp [current, hpoint]
  have hcases := accept4_cases s reason
  unfold Acceptor.handleRead
  rw [accept_eq hexp, ok_bind]
  generalize s.accept4 reason = r at hcases ⊢
  cases hcases with
  | @failed e =>
      have hfull : Inv { s with point := .full } := by
        have hspare : spare { s with point := .full } = s.spare := by simp [spare, hpoint]
        exact ⟨⟨by rw [hspare]; exact h.used, h.socket, by rw [hspare]; exact h.spare_ne,
          by rw [hspare]; exact h.spare_not_mem⟩, ⟨by simpa [current, hpoint] using h.all, h.order⟩⟩
      cases e with
      | EMFILE => exact Safe.ok hfull
      | _ => exact Safe.ok h
  | @accepted id fd fds backlog ha hb =>
      obtain ⟨hall, horder, hrest⟩ := h.head hb
      dsimp only
      by_cases hcb : s.newConnectionCallback = true
      · -- the connection and its descriptor go to the callback
        rw [if_pos hcb]
        have htake := h.take ha
        refine Safe.ok ⟨⟨htake.used, htake.socket, htake.spare_ne, htake.spare_not_mem⟩,
          ⟨hall.symm.trans ?_ |>.symm, by simpa using horder⟩⟩
        rw [List.perm_iff_count]
        intro k
        simp only [current, List.count_append, List.count_cons, List.count_nil]
        omega
      · -- nobody wants it, so its descriptor is closed
        rw [if_neg hcb]
        obtain ⟨hsock, hspare, hother, hused⟩ := h.alloc_fresh ha
        have hclose := close_some (s := { s with fds, backlog }) hother
        rw [hclose, ok_bind]
        refine Safe.ok ⟨⟨?_, h.socket, h.spare_ne, h.spare_not_mem⟩, ⟨hall.symm.trans ?_ |>.symm, hrest⟩⟩
        · show fds.used.erase fd = insert s.acceptSocket (s.spare.toFinset ∪ s.others)
          rw [hused, Finset.erase_insert]
          simp [hsock, hspare, hother]
        · rw [List.perm_iff_count]
          intro k
          simp only [current, List.count_append, List.count_cons, List.count_nil]
          omega

theorem Inv.next (h : s.Inv) {reason : Option AcceptErrno} : Safe (s.next reason) Inv := by
  unfold Acceptor.next
  split
  · exact Safe.ok h
  · next hpoint =>
      -- the spare descriptor is closed, and `idleFd_` dangles
      obtain ⟨fds, hclose, -, hused⟩ := h.closeSpare (by simp [spare, hpoint])
      rw [hclose, ok_bind]
      refine Safe.ok ⟨⟨by simpa [spare] using hused, h.socket, nofun, nofun⟩, ⟨?_, h.order⟩⟩
      simpa [current, hpoint] using h.all
  · next hpoint =>
      have hcases := accept4_cases s reason
      generalize s.accept4 reason = r at hcases ⊢
      have hspare : s.spare = none := by simp [spare, hpoint]
      cases hcases with
      | failed =>
          refine Safe.ok ⟨⟨?_, h.socket, nofun, nofun⟩, ⟨?_, h.order⟩⟩
          · have hused := h.used
            rw [hspare] at hused
            simpa [spare] using hused
          · simpa [current, hpoint] using h.all
      | @accepted id fd fds backlog ha hb =>
          obtain ⟨hall, -, hrest⟩ := h.head hb
          obtain ⟨hsock, -, hother, hused⟩ := h.alloc_fresh ha
          refine Safe.ok ⟨⟨?_, h.socket, ?_, ?_⟩, ⟨hall.symm.trans ?_ |>.symm, hrest⟩⟩
          · show fds.used = insert s.acceptSocket ((some fd).toFinset ∪ s.others)
            rw [hused, hspare, Finset.insert_comm]
            simp
          · simpa [spare] using hsock
          · rintro k ⟨⟩
            exact hother
          · rw [List.perm_iff_count]
            intro k
            simp only [current, hpoint, Option.toList, List.count_append, List.count_cons, List.count_nil]
            omega
  · next id hpoint =>
      -- what was accepted is closed
      obtain ⟨fds, hclose, -, hused⟩ := h.closeSpare (by simp [spare, hpoint])
      rw [hclose, ok_bind]
      refine Safe.ok ⟨⟨by simpa [spare] using hused, h.socket, nofun, nofun⟩, ⟨?_, h.order⟩⟩
      refine List.Perm.trans ?_ h.all
      rw [List.perm_iff_count]
      intro k
      simp only [current, hpoint, List.count_append, List.count_nil]
      omega
  · next hpoint =>
      have hspare : s.spare = none := by simp [spare, hpoint]
      have hall : (s.backlog ++ [] ++ s.handedOver ++ s.closed ++ s.gone).Perm (List.range s.arrived) := by
        simpa [current, hpoint] using h.all
      split
      · refine Safe.ok ⟨⟨?_, h.socket, nofun, nofun⟩, ⟨hall, h.order⟩⟩
        have hused := h.used
        rw [hspare] at hused
        simpa [spare] using hused
      · next fd fds ha =>
          obtain ⟨hsock, -, hother, hused⟩ := h.alloc_fresh ha
          refine Safe.ok ⟨⟨?_, h.socket, ?_, ?_⟩, ⟨hall, h.order⟩⟩
          · show fds.used = insert s.acceptSocket ((some fd).toFinset ∪ s.others)
            rw [hused, hspare, Finset.insert_comm]
            simp
          · simpa [spare] using hsock
          · rintro k ⟨⟩
            exact hother

theorem Inv.exec (h : s.Inv) {a : Action} (ha : s.enabled a) : Safe (s.exec a) Inv := by
  cases a with
  | arrive => exact Safe.ok ⟨⟨h.used, h.socket, h.spare_ne, h.spare_not_mem⟩, h.arrive⟩
  | leave id => exact Safe.ok ⟨⟨h.used, h.socket, h.spare_ne, h.spare_not_mem⟩, h.leave ha⟩
  | handleRead reason => exact h.handleRead ha.1 ha.2
  | next reason => exact h.next
  | «open» =>
      unfold Acceptor.exec
      dsimp only
      split
      · exact Safe.ok h
      · next halloc => exact Safe.ok ⟨h.take halloc, ⟨h.all, h.order⟩⟩
  | close fd => exact Safe.ok ⟨h.drop ha, ⟨h.all, h.order⟩⟩

theorem acceptorSystem_inv (h : acceptorSystem.Reachable s) : s.Inv := by
  refine System.inv (S := acceptorSystem) ?_ (fun _ _ hs ha => hs.exec ha) h
  rintro s ⟨fds, callback, hnew⟩
  unfold new at hnew
  split at hnew
  · cases hnew
  · next ha =>
      split at hnew
      · cases hnew
      · next ha' =>
          cases hnew
          obtain ⟨hfree, hused, -⟩ := Descriptors.alloc_spec ha
          obtain ⟨hfree', hused', -⟩ := Descriptors.alloc_spec ha'
          rw [hused, Finset.mem_insert, not_or] at hfree'
          refine ⟨⟨?_, hfree, ?_, ?_⟩, ⟨List.Perm.refl _, List.Pairwise.nil⟩⟩
          · rw [hused', hused, Finset.insert_comm]
            simp [spare]
          · simpa [spare] using hfree'.1
          · rintro k ⟨⟩
            exact hfree'.2

/-- **Nothing leaks, nothing is lost.** Whatever the other threads do with their descriptors and whenever they do it:
    the process has the descriptors of the others, the listening socket, and the spare one or none, and these are
    different ones; each connection that arrived is in exactly one place, and those that were passed on were so in
    the order of their arrival; the acceptor never closes a descriptor of somebody else, and when it is destroyed
    between two calls, just the descriptors of the others are left. -/
theorem descriptors_accounted (h : acceptorSystem.Reachable s) :
    s.fds.used = insert s.acceptSocket (s.spare.toFinset ∪ s.others) ∧ s.acceptSocket ∉ s.others ∧
      (∀ fd, s.spare = some fd → fd ≠ s.acceptSocket ∧ fd ∉ s.others) ∧
      (s.backlog ++ s.current ++ s.handedOver ++ s.closed ++ s.gone).Perm (List.range s.arrived) ∧
      (s.handedOver ++ s.backlog).Pairwise (· < ·) ∧
      (∀ a, s.enabled a → Safe (s.exec a) fun _ => True) ∧
      (s.point = .idle → ∃ s', s.dtor = .ok s' ∧ s'.fds.used = s.others) := by
  have hinv := acceptorSystem_inv h
  refine ⟨hinv.used, hinv.socket, fun fd hfd => ⟨?_, hinv.spare_not_mem fd hfd⟩, hinv.all, hinv.order,
    fun a ha => (hinv.exec ha).mono fun _ _ => trivial, fun hpoint => ?_⟩
  · rintro rfl
    exact hinv.spare_ne hfd
  · obtain ⟨fds, hclose, -, hused⟩ := hinv.closeSpare (by simp [spare, hpoint])
    unfold dtor
    rw [hclose, ok_bind]
    refine ⟨_, close_some (s := { s with fds }) hinv.socket, ?_⟩
    show fds.used.erase s.acceptSocket = s.others
    rw [hused, Finset.erase_insert hinv.socket]

/-- A refused connection and one passed on. -/
theorem descriptors_accounted_refused : ∃ s : Acceptor,
    s.handedOver = [0] ∧ s.closed = [1] ∧ (s.handedOver ++ s.backlog).Pairwise (· < ·) := by
  have h := (System.Reachable.init (S := acceptorSystem) ⟨⟨3, ∅, by decide⟩, true, rfl⟩)
    |>.next .arrive trivial rfl
    |>.next .arrive trivial rfl
    |>.next (.handleRead none) ⟨rfl, trivial⟩ rfl
    |>.next (.handleRead none) ⟨rfl, trivial⟩ rfl
    |>.next (.next none) ⟨by decide, trivial⟩ rfl
    |>.next (.next none) ⟨by decide, trivial⟩ rfl
    |>.next (.next none) ⟨by decide, trivial⟩ rfl
    |>.next (.next none) ⟨by decide, trivial⟩ rfl
  exact ⟨_, rfl, rfl, (descriptors_accounted h).2.2.2.2.1⟩

/-! ## The spare descriptor -/

/-- Nobody else makes a descriptor while `handleRead` is without its own. -/
def Undisturbed (s : Acceptor) : Action → Prop
  | .open => s.point = .idle ∨ s.point = .full
  | _ => True

/-- The acceptor has its spare descriptor, or there is room for one. -/
structure Kept (s : Acceptor) : Prop where
  has : s.point = .idle ∨ s.point = .full → ∃ fd, s.idleFd = some fd
  room : s.point = .accepting ∨ s.point = .opening → s.fds.used.card < s.fds.limit
  either : ∀ id, s.point = .closing id → (∃ fd, s.idleFd = some fd) ∨ s.fds.used.card < s.fds.limit

theorem Kept.handleRead (h : s.Kept) (hinv : s.Inv) {reason : Option AcceptErrno} (hpoint : s.point = .idle)
    (hexp : Expected reason) : Safe (s.handleRead reason) Kept := by
  have hhas := h.has (Or.inl hpoint)
  have hcases := accept4_cases s reason
  unfold Acceptor.handleRead
  rw [accept_eq hexp, ok_bind]
  generalize s.accept4 reason = r at hcases ⊢
  cases hcases with
  | @failed e =>
      cases e with
      | EMFILE => exact Safe.ok ⟨fun _ => hhas, by simp, by simp⟩
      | _ => exact Safe.ok h
  | @accepted id fd fds backlog ha hb =>
      have hplace : ∀ s' : Acceptor, s'.point = s.point → s'.idleFd = s.idleFd → s'.Kept := by
        intro s' hp hi
        rw [hpoint] at hp
        exact ⟨fun _ => hi ▸ hhas, by simp [hp], by simp [hp]⟩
      dsimp only
      by_cases hcb : s.newConnectionCallback = true
      · rw [if_pos hcb]
        exact Safe.ok (hplace _ rfl rfl)
      · rw [if_neg hcb]
        have hclose := close_some (s := { s with fds, backlog }) (hinv.alloc_fresh ha).2.2.1
        rw [hclose, ok_bind]
        exact Safe.ok (hplace _ rfl rfl)

theorem Kept.next (h : s.Kept) (hinv : s.Inv) {reason : Option AcceptErrno} : Safe (s.next reason) Kept := by
  have hused := hinv.used
  unfold Acceptor.next
  split
  · exact Safe.ok h
  · next hpoint =>
      obtain ⟨fd, hfd⟩ := h.has (Or.inr hpoint)
      have hspare : s.spare = some fd := by simp [spare, hpoint, hfd]
      have hmem : fd ∈ s.fds.used := by simp [hused, hspare]
      rw [hfd, close_some (hinv.spare_not_mem fd hspare), ok_bind]
      exact Safe.ok ⟨by simp, fun _ => Descriptors.card_close_lt hmem, by simp⟩
  · next hpoint =>
      have hroom := h.room (Or.inl hpoint)
      have hcases := accept4_cases s reason
      generalize s.accept4 reason = r at hcases ⊢
      cases hcases with
      | failed => exact Safe.ok ⟨by simp, by simp, fun _ _ => Or.inr hroom⟩
      | accepted ha hb => exact Safe.ok ⟨by simp, by simp, fun _ _ => Or.inl ⟨_, rfl⟩⟩
  · next id hpoint =>
      rcases Option.eq_none_or_eq_some s.idleFd with hnone | ⟨fd, hfd⟩
      · have hroom := (h.either id hpoint).resolve_left (by simp [hnone])
        have hclose : s.close s.idleFd = .ok s := congrArg s.close hnone
        rw [hclose, ok_bind]
        exact Safe.ok ⟨by simp, fun _ => hroom, by simp⟩
      · have hspare : s.spare = some fd := by simp [spare, hpoint, hfd]
        have hmem : fd ∈ s.fds.used := by simp [hused, hspare]
        rw [hfd, close_some (hinv.spare_not_mem fd hspare), ok_bind]
        exact Safe.ok ⟨by simp, fun _ => Descriptors.card_close_lt hmem, by simp⟩
  · next hpoint =>
      obtain ⟨fd, fds, ha⟩ := Descriptors.exists_alloc (h.room (Or.inr hpoint))
      rw [ha]
      exact Safe.ok ⟨fun _ => ⟨fd, rfl⟩, by simp, by simp⟩

theorem Kept.exec (h : s.Kept) (hinv : s.Inv) {a : Action} (ha : s.enabled a) (hu : Undisturbed s a) :
    Safe (s.exec a) Kept := by
  cases a with
  | arrive => exact Safe.ok ⟨h.has, h.room, h.either⟩
  | leave id => exact Safe.ok ⟨h.has, h.room, h.either⟩
  | handleRead reason => exact h.handleRead hinv ha.1 ha.2
  | next reason => exact h.next hinv
  | «open» =>
      have hpoint : s.point = .idle ∨ s.point = .full := hu
      unfold Acceptor.exec
      dsimp only
      split
      · exact Safe.ok h
      · refine Safe.ok ⟨h.has, ?_, ?_⟩
        · rintro (hp | hp)
          · rcases hpoint with hq | hq <;> cases hp.symm.trans hq
          · rcases hpoint with hq | hq <;> cases hp.symm.trans hq
        · intro id hp
          rcases hpoint with hq | hq <;> cases hp.symm.trans hq
  | close fd =>
      have hle : (s.fds.close fd).used.card ≤ s.fds.used.card := Descriptors.card_close_le
      refine Safe.ok ⟨h.has, fun hp => hle.trans_lt (h.room hp), fun id hp => ?_⟩
      exact (h.either id hp).imp_right fun hroom => hle.trans_lt hroom

theorem undisturbed_kept (h : (acceptorSystem.when Undisturbed).Reachable s) : s.Inv ∧ s.Kept := by
  refine System.inv (S := acceptorSystem.when Undisturbed) (I := fun s => s.Inv ∧ s.Kept) ?_ ?_ h
  · rintro s ⟨fds, callback, hnew⟩
    refine ⟨acceptorSystem_inv (.init ⟨fds, callback, hnew⟩), ?_⟩
    unfold new at hnew
    split at hnew
    · cases hnew
    · split at hnew
      · cases hnew
      · cases hnew
        exact ⟨fun _ => ⟨_, rfl⟩, by simp, by simp⟩
  · rintro s a ⟨hinv, hkept⟩ ⟨ha, hu⟩
    have hboth := (hinv.exec ha).attach
    refine hboth.mono fun s' hs' => ⟨hs'.2, (hkept.exec hinv ha hu).of_eq_ok hs'.1⟩

/-- Between two calls the process has two descriptors more than the others have. -/
theorem card_used (hinv : s.Inv) (hkept : s.Kept) (hpoint : s.point = .idle) :
    s.fds.used.card = s.others.card + 2 := by
  obtain ⟨fd, hfd⟩ := hkept.has (Or.inl hpoint)
  have hspare : s.spare = some fd := by simp [spare, hpoint, hfd]
  have hother : fd ∉ s.others := hinv.spare_not_mem fd hspare
  have hne : s.acceptSocket ≠ fd := by
    rintro rfl
    exact hinv.spare_ne hspare
  have hnot : s.acceptSocket ∉ insert fd s.others := by
    rw [Finset.mem_insert, not_or]
    exact ⟨hne, hinv.socket⟩
  rw [hinv.used, hspare, Option.toFinset_some, ← Finset.insert_eq, Finset.card_insert_of_notMem hnot,
    Finset.card_insert_of_notMem hother]

/-! ## A call of `handleRead` at a full table -/

theorem handleRead_full (h : s.fds.Full) (reason : Option AcceptErrno) :
    s.handleRead reason = .ok { s with point := .full } := by
  have hnone : s.fds.alloc = none := h
  unfold Acceptor.handleRead accept accept4
  rw [hnone]
  rfl

/-- The connection that `::accept` takes from the queue, if it does not fail for the given reason. -/
def refused (s : Acceptor) (reason : Option AcceptErrno) : Option Nat :=
  match reason with
  | none => s.backlog.head?
  | some _ => none

/-- What the system calls of `handleRead` do, one after the other. -/
inductive Calls (s : Acceptor) (reason : Option AcceptErrno) (s' : Acceptor) : Prop where
  | full : s.point = .full → s'.point = .accepting → s'.closed = s.closed → s'.backlog = s.backlog →
      Calls s reason s'
  | accepting : s.point = .accepting → s'.point = .closing (s.refused reason) → s'.closed = s.closed →
      Calls s reason s'
  | closing {id : Option Nat} : s.point = .closing id → s'.point = .opening →
      s'.closed = s.closed ++ id.toList → Calls s reason s'
  | opening : s.point = .opening → s'.point = .idle → s'.closed = s.closed → Calls s reason s'

theorem close_eq {fd : Option Nat} (h : s.close fd = .ok s') :
    s'.closed = s.closed ∧ s'.backlog = s.backlog ∧ s'.handedOver = s.handedOver ∧ s'.fds.limit = s.fds.limit := by
  unfold Acceptor.close at h
  split at h
  · cases h
    exact ⟨rfl, rfl, rfl, rfl⟩
  · split at h
    · cases h
    · cases h
      exact ⟨rfl, rfl, rfl, rfl⟩

/-- **One system call.** Where a descriptor is needed there is room for it. -/
theorem next_calls (hkept : s.Kept) (hpoint : s.point ≠ .idle) {reason : Option AcceptErrno}
    (h : s.next reason = .ok s') : Calls s reason s' ∧ s'.handedOver = s.handedOver ∧ s'.fds.limit = s.fds.limit := by
  unfold Acceptor.next at h
  split at h
  · next hidle => exact absurd hidle hpoint
  · next hfull =>
      obtain ⟨s₁, hclose, h⟩ := bind_eq_ok.mp h
      obtain ⟨hclosed, hbacklog, hover, hlimit⟩ := close_eq hclose
      cases h
      exact ⟨.full hfull rfl hclosed hbacklog, hover, hlimit⟩
  · next haccepting =>
      obtain ⟨fd, fds, ha⟩ := Descriptors.exists_alloc (hkept.room (Or.inl haccepting))
      obtain ⟨-, -, hlimit⟩ := Descriptors.alloc_spec ha
      unfold accept4 at h
      rw [ha] at h
      cases reason with
      | some e =>
          cases h
          exact ⟨.accepting haccepting rfl rfl, rfl, rfl⟩
      | none =>
          cases hb : s.backlog with
          | nil =>
              rw [hb] at h
              cases h
              exact ⟨.accepting haccepting (by simp [refused, hb]) rfl, rfl, rfl⟩
          | cons id backlog =>
              rw [hb] at h
              cases h
              exact ⟨.accepting haccepting (by simp [refused, hb]) rfl, rfl, hlimit⟩
  · next id hclosing =>
      obtain ⟨s₁, hclose, h⟩ := bind_eq_ok.mp h
      obtain ⟨hclosed, -, hover, hlimit⟩ := close_eq hclose
      cases h
      exact ⟨.closing hclosing rfl (by rw [hclosed]), hover, hlimit⟩
  · next hopening =>
      obtain ⟨fd, fds, ha⟩ := Descriptors.exists_alloc (hkept.room (Or.inr hopening))
      obtain ⟨-, -, hlimit⟩ := Descriptors.alloc_spec ha
      rw [ha] at h
      cases h
      exact ⟨.opening hopening rfl rfl, rfl, hlimit⟩

/-- Nothing else touches what the call is about. -/
theorem exec_others {a : Action} (hread : ∀ reason, a ≠ .handleRead reason) (hnext : ∀ reason, a ≠ .next reason)
    (h : s.exec a = .ok s') : s'.point = s.point ∧ s'.closed = s.closed ∧ s'.handedOver = s.handedOver ∧
      s'.fds.limit = s.fds.limit ∧ ((∀ id, a ≠ .leave id) → s.backlog <+: s'.backlog) := by
  cases a with
  | arrive =>
      cases h
      exact ⟨rfl, rfl, rfl, rfl, fun _ => List.prefix_append _ _⟩
  | leave id =>
      cases h
      exact ⟨rfl, rfl, rfl, rfl, fun hno => absurd rfl (hno id)⟩
  | handleRead reason => exact absurd rfl (hread reason)
  | next reason => exact absurd rfl (hnext reason)
  | «open» =>
      unfold Acceptor.exec at h
      dsimp only at h
      split at h
      · cases h
        exact ⟨rfl, rfl, rfl, rfl, fun _ => List.prefix_refl _⟩
      · next ha =>
          cases h
          exact ⟨rfl, rfl, rfl, (Descriptors.alloc_spec ha).2.2, fun _ => List.prefix_refl _⟩
  | close fd =>
      cases h
      exact ⟨rfl, rfl, rfl, rfl, fun _ => List.prefix_refl _⟩

variable {t t' : Acceptor} {as : List Action}

/-- The runs in which the spare descriptor is kept. -/
abbrev undisturbedSystem : System Acceptor Action := acceptorSystem.when Undisturbed

/-- How far a call has come that began in `s`, after the actions `as`. -/
inductive Midway (s : Acceptor) (as : List Action) (t : Acceptor) : Prop where
  /-- It has not accepted yet. -/
  | before : t.point = .full ∨ t.point = .accepting → t.closed = s.closed →
      ((∀ a ∈ as, ∀ id, a ≠ .leave id) → s.backlog <+: t.backlog) → Midway s as t
  /-- It has accepted from the queue of `s₁`, and has closed what it accepted, or is about to. -/
  | after {as₁ as₂ : List Action} {reason : Option AcceptErrno} {s₁ : Acceptor} :
      as = as₁ ++ .next reason :: as₂ → undisturbedSystem.Path s as₁ s₁ → s₁.point = .accepting →
      ((∀ a ∈ as₁, ∀ id, a ≠ .leave id) → s.backlog <+: s₁.backlog) →
      t.point = .closing (s₁.refused reason) ∧ t.closed = s.closed ∨
        (t.point = .opening ∨ t.point = .idle) ∧ t.closed = s.closed ++ (s₁.refused reason).toList →
      Midway s as t

/-- **One action**, of whomever, while the call is under way. -/
theorem Midway.step (h : Midway s as t) (hpath : undisturbedSystem.Path s as t) (hkept : t.Kept) {a : Action}
    (hread : ∀ reason, a ≠ .handleRead reason) (hstep : undisturbedSystem.Step t a t') : Midway s (as ++ [a]) t' := by
  by_cases hnext : ∃ reason, a = .next reason
  · obtain ⟨reason, rfl⟩ := hnext
    obtain ⟨⟨hpoint, -⟩, -⟩ := hstep.1
    obtain ⟨hcalls, -, -⟩ := next_calls hkept hpoint hstep.2
    cases h with
    | before hp hclosed hqueue =>
        rcases hcalls with ⟨hq, hq', hc, hb⟩ | ⟨hq, hq', hc⟩ | ⟨hq, -, -⟩ | ⟨hq, -, -⟩
        · refine .before (Or.inr hq') (hc.trans hclosed) fun hno => ?_
          rw [hb]
          exact hqueue fun a ha => hno a (List.mem_append_left _ ha)
        · exact .after rfl hpath hq hqueue (Or.inl ⟨hq', hc.trans hclosed⟩)
        · rcases hp with hp | hp <;> cases hp.symm.trans hq
        · rcases hp with hp | hp <;> cases hp.symm.trans hq
    | @after as₁ as₂ reason₁ s₁ heq hpath₁ hp₁ hqueue hend =>
        have heq' : as ++ [.next reason] = as₁ ++ .next reason₁ :: (as₂ ++ [.next reason]) := by
          rw [heq, List.append_assoc, List.cons_append]
        refine .after heq' hpath₁ hp₁ hqueue (Or.inr ?_)
        rcases hend with ⟨hp, hclosed⟩ | ⟨hp, hclosed⟩
        · rcases hcalls with ⟨hq, -, -, -⟩ | ⟨hq, -, -⟩ | ⟨hq, hq', hc⟩ | ⟨hq, -, -⟩
          · cases hp.symm.trans hq
          · cases hp.symm.trans hq
          · cases hp.symm.trans hq
            exact ⟨Or.inl hq', by rw [hc, hclosed]⟩
          · cases hp.symm.trans hq
        · have hp : t.point = .opening := hp.resolve_right hpoint
          rcases hcalls with ⟨hq, -, -, -⟩ | ⟨hq, -, -⟩ | ⟨hq, -, -⟩ | ⟨hq, hq', hc⟩
          · cases hp.symm.trans hq
          · cases hp.symm.trans hq
          · cases hp.symm.trans hq
          · exact ⟨Or.inr hq', hc.trans hclosed⟩
  · -- somebody else
    obtain ⟨hpoint, hc, -, -, hb⟩ := exec_others hread (fun reason hr => hnext ⟨reason, hr⟩) hstep.2
    cases h with
    | before hp hclosed hqueue =>
        refine .before (hpoint ▸ hp) (hc.trans hclosed) fun hno => ?_
        refine (hqueue fun a ha => hno a (List.mem_append_left _ ha)).trans (hb ?_)
        exact hno a (List.mem_append_right _ (List.mem_singleton_self a))
    | @after as₁ as₂ reason₁ s₁ heq hpath₁ hp₁ hqueue hend =>
        have heq' : as ++ [a] = as₁ ++ .next reason₁ :: (as₂ ++ [a]) := by
          rw [heq, List.append_assoc, List.cons_append]
        refine .after heq' hpath₁ hp₁ hqueue ?_
        rw [hpoint, hc]
        exact hend

/-- **The call**, whatever else happens meanwhile. -/
theorem midway_of_path (h : undisturbedSystem.Reachable s) (hpoint : s.point = .full)
    (hpath : undisturbedSystem.Path s as t) (hread : ∀ a ∈ as, ∀ reason, a ≠ .handleRead reason) :
    Midway s as t ∧ t.handedOver = s.handedOver ∧ t.fds.limit = s.fds.limit := by
  induction hpath with
  | nil => exact ⟨.before (Or.inl hpoint) rfl fun _ => List.prefix_refl _, rfl, rfl⟩
  | @snoc as t a t' hpath hstep ih =>
      obtain ⟨hmid, hover, hlimit⟩ := ih fun b hb => hread b (List.mem_append_left _ hb)
      have ha := hread a (List.mem_append_right _ (List.mem_singleton_self a))
      have hkept := (undisturbed_kept (h.path hpath)).2
      refine ⟨hmid.step hpath hkept ha hstep, ?_⟩
      by_cases hnext : ∃ reason, a = .next reason
      · obtain ⟨reason, rfl⟩ := hnext
        obtain ⟨-, hover', hlimit'⟩ := next_calls hkept hstep.1.1.1 hstep.2
        exact ⟨hover'.trans hover, hlimit'.trans hlimit⟩
      · obtain ⟨-, -, hover', hlimit', -⟩ := exec_others ha (fun reason hr => hnext ⟨reason, hr⟩) hstep.2
        exact ⟨hover'.trans hover, hlimit'.trans hlimit⟩

/-- **The spare descriptor is kept, and empties the queue.** In every interleaving in which nobody else makes a
    descriptor while `handleRead` is without its own, between two calls the acceptor has it. A call of `handleRead` that
    finds the table full, from its beginning to its end, with whatever else happens meanwhile: it hands no connection
    over; it closes the one that is at the head of the queue when it accepts in place of the spare descriptor, and none
    if that `::accept` fails or the queue is empty by then; and the table is full again when it ends, unless others
    have closed more descriptors meanwhile than they have made. The head of the queue is still the one that was there
    when the call began if no connection has left the queue by itself before. -/
theorem full_table_refuses (h : undisturbedSystem.Reachable s) (hpoint : s.point = .idle) :
    (∃ fd, s.idleFd = some fd ∧ fd ∈ s.fds.used ∧ fd ∉ s.others) ∧
      (s.fds.Full → ∀ reason s₀ as s', undisturbedSystem.Step s (.handleRead reason) s₀ →
        undisturbedSystem.Path s₀ as s' → (∀ a ∈ as, ∀ reason', a ≠ .handleRead reason') → s'.point = .idle →
        s'.handedOver = s.handedOver ∧ (s'.fds.Full ↔ s.others.card ≤ s'.others.card) ∧
        ∃ as₁ reason₁ as₂ s₁, as = as₁ ++ .next reason₁ :: as₂ ∧ undisturbedSystem.Path s₀ as₁ s₁ ∧
          s₁.point = .accepting ∧ s'.closed = s.closed ++ (s₁.refused reason₁).toList ∧
          ((∀ a ∈ as₁, ∀ id, a ≠ .leave id) → s.backlog <+: s₁.backlog)) := by
  obtain ⟨hinv, hkept⟩ := undisturbed_kept h
  refine ⟨?_, fun hfull reason s₀ as s' hstep hpath hread hpoint' => ?_⟩
  · obtain ⟨fd, hfd⟩ := hkept.has (Or.inl hpoint)
    have hspare : s.spare = some fd := by simp [spare, hpoint, hfd]
    exact ⟨fd, hfd, by simp [hinv.used, hspare], hinv.spare_not_mem fd hspare⟩
  · have hbegin : s₀ = { s with point := .full } :=
      (Except.ok.inj ((handleRead_full hfull reason).symm.trans hstep.2)).symm
    have h₀ : undisturbedSystem.Reachable s₀ := h.step hstep
    obtain ⟨hmid, hover, hlimit⟩ := midway_of_path h₀ (by rw [hbegin]) hpath hread
    have hcard : s'.fds.Full ↔ s.others.card ≤ s'.others.card := by
      obtain ⟨hinv', hkept'⟩ := undisturbed_kept (h₀.path hpath)
      have hused := card_used hinv hkept hpoint
      have hused' := card_used hinv' hkept' hpoint'
      have hle := s'.fds.card_le
      rw [Descriptors.full_iff] at hfull ⊢
      rw [hlimit, hbegin] at hle ⊢
      show _ = s.fds.limit ↔ _
      have hle : s'.fds.used.card ≤ s.fds.limit := hle
      omega
    refine ⟨by rw [hover, hbegin], hcard, ?_⟩
    cases hmid with
    | before hp => rcases hp with hp | hp <;> cases hp.symm.trans hpoint'
    | @after as₁ as₂ reason₁ s₁ heq hpath₁ hp₁ hqueue hend =>
        rcases hend with ⟨hp, -⟩ | ⟨-, hclosed⟩
        · cases hp.symm.trans hpoint'
        · refine ⟨as₁, reason₁, as₂, s₁, heq, hpath₁, hp₁, ?_, fun hno => ?_⟩
          · rw [hclosed, hbegin]
          · have := hqueue hno
            rw [hbegin] at this
            exact this

/-- The third connection finds the table full; while it is refused a fourth one arrives, and another thread closes a
    descriptor. -/
theorem full_table_refuses_third : ∃ s s' : Acceptor, s.backlog = [2, 3] ∧ s'.closed = [2] ∧ s'.backlog = [3, 4] ∧
    s'.handedOver = s.handedOver ∧ ¬ s'.fds.Full := by
  have h := (System.Reachable.init (S := undisturbedSystem) ⟨⟨5, {0}, by decide⟩, true, rfl⟩)
    |>.next .arrive ⟨trivial, trivial⟩ rfl
    |>.next .arrive ⟨trivial, trivial⟩ rfl
    |>.next .arrive ⟨trivial, trivial⟩ rfl
    |>.next (.handleRead none) ⟨⟨rfl, trivial⟩, trivial⟩ rfl
    |>.next (.handleRead none) ⟨⟨rfl, trivial⟩, trivial⟩ rfl
    |>.next .arrive ⟨trivial, trivial⟩ rfl
  have hpath := fun s => (System.Path.nil : undisturbedSystem.Path s [] s)
  have hcall := (full_table_refuses h rfl).2 (by rfl) none _ [.next none, .arrive, .next none, .next none, .close 0,
    .next none] _ ⟨⟨⟨rfl, trivial⟩, trivial⟩, rfl⟩ (hpath _
      |>.next (.next none) ⟨⟨by decide, trivial⟩, trivial⟩ rfl
      |>.next .arrive ⟨trivial, trivial⟩ rfl
      |>.next (.next none) ⟨⟨by decide, trivial⟩, trivial⟩ rfl
      |>.next (.next none) ⟨⟨by decide, trivial⟩, trivial⟩ rfl
      |>.next (.close 0) ⟨by exact (by decide : 0 ∈ insert 4 (insert 3 ({0} : Finset Nat))), trivial⟩ rfl
      |>.next (.next none) ⟨⟨by decide, trivial⟩, trivial⟩ rfl) (by simp) rfl
  obtain ⟨hover, hfull, -⟩ := hcall
  exact ⟨_, _, rfl, rfl, rfl, hover, fun hf => absurd (hfull.mp hf) (by decide)⟩

end Acceptor

end Muduo.Net
