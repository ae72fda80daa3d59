import Mathlib.Algebra.Order.BigOperators.Group.Finset
import QueryLease.Proofs.Lease.Shared

namespace QueryLease.Lease

variable {ι : Type} [Fintype ι] [DecidableEq ι]

namespace Task

def closing : Task → Nat
  | close _ => 1
  | _ => 0

def handing : Task → Nat
  | handOver _ => 1
  | _ => 0

def asking (n : Nat) (t : Task) : Nat := if t.request? = some n then 1 else 0

def Free : Task → Prop
  | idle | acquire _ => True
  | _ => False

theorem Free.closing_eq {t : Task} (h : t.Free) : t.closing = 0 := by
  cases t <;> first | rfl | cases h

theorem Free.handing_eq {t : Task} (h : t.Free) : t.handing = 0 := by
  cases t <;> first | rfl | cases h

end Task

omit [DecidableEq ι] in
theorem total_eq_zero {f : Thread → Nat} {threads : ι → Thread} :
    total f threads = 0 ↔ ∀ i, f (threads i) = 0 := by
  simp [total]

omit [DecidableEq ι] in
theorem single_le_total (f : Thread → Nat) (threads : ι → Thread) (i : ι) :
    f (threads i) ≤ total f threads :=
  Finset.single_le_sum (f := fun j => f (threads j)) (fun _ _ => Nat.zero_le _) (Finset.mem_univ i)

/-- The word counts the reads, and one hand-over is due iff release was requested and nothing is
read any more: a thread has to close the lease, or has closed it, or has handed the buffer over. -/
structure Due (word : Word) (requested : Bool) (reads closing handing handedOver : Nat) : Prop where
  reads_lt : reads < Word.limit
  word_eq : word = .pack requested (decide (handing + handedOver ≠ 0)) reads
  due : closing + handing + handedOver = if requested && decide (reads = 0) then 1 else 0

namespace Due

variable {word word' : Word} {q : Bool} {r c k d : Nat}

theorem fresh : Due .fresh false 0 0 0 0 := ⟨by decide, rfl, rfl⟩

theorem word_eq_open (h : Due word q r c k d) (ho : (q && decide (r = 0)) = false) :
    word = .pack q false r ∧ k = 0 ∧ d = 0 ∧ c = 0 := by
  have hd := h.due
  rw [ho] at hd
  simp only [Bool.false_eq_true, if_false] at hd
  have hk : decide (k + d ≠ 0) = false := decide_eq_false (by omega)
  exact ⟨hk ▸ h.word_eq, by omega⟩

theorem acquire (h : Due word q r c k d) (hw : word.acquire = .ok word') :
    q = false ∧ Due word' q (r + 1) c k d := by
  cases q with
  | true =>
    rw [h.word_eq, Word.acquire_pack_requested h.reads_lt] at hw
    cases hw
  | false =>
    obtain ⟨rfl, rfl, rfl, rfl⟩ := h.word_eq_open rfl
    have hr := h.reads_lt
    by_cases hlt : r + 1 < Word.limit
    · rw [Word.acquire_pack_opened hlt] at hw
      exact ⟨rfl, hlt, (Except.ok.inj hw).symm, rfl⟩
    · rw [Word.acquire_pack_full (by omega)] at hw
      cases hw

theorem endRead (h : Due word q (r + 1) c k d) : ∃ word',
    word.endRead = (q && decide (r = 0), word') ∧
      Due word' q r (c + if q && decide (r = 0) then 1 else 0) k d := by
  obtain ⟨rfl, rfl, rfl, rfl⟩ := h.word_eq_open (by simp)
  have hr := h.reads_lt
  refine ⟨.pack q false r, ?_, by omega, rfl, ?_⟩
  · rw [Word.endRead_pack hr, Bool.not_false, Bool.and_true]
  · simp

theorem request (h : Due word q r c k d) : ∃ word',
    word.request = (if q then none else some r, word') ∧
      Due word' true r (c + if !q && decide (r = 0) then 1 else 0) k d := by
  refine ⟨.pack true (decide (k + d ≠ 0)) r, ?_, h.reads_lt, rfl, ?_⟩
  · rw [h.word_eq, Word.request_pack h.reads_lt]
  cases q with
  | true => simpa using h.due
  | false =>
    obtain ⟨_, rfl, rfl, rfl⟩ := h.word_eq_open rfl
    simp

theorem close (h : Due word q r (c + 1) k d) :
    word.finish? = some .shut ∧ Due .shut q r c (k + 1) d := by
  have hd := h.due
  cases hq : q && decide (r = 0) with
  | false =>
    rw [hq] at hd
    simp only [Bool.false_eq_true, if_false] at hd
    omega
  | true =>
    obtain ⟨rfl, hr⟩ := Bool.and_eq_true_iff.1 hq
    obtain rfl := of_decide_eq_true hr
    rw [hq, if_pos rfl] at hd
    obtain ⟨rfl, rfl, rfl⟩ : c = 0 ∧ k = 0 ∧ d = 0 := by omega
    exact ⟨h.word_eq ▸ Word.finish?_pack h.reads_lt, h.reads_lt, rfl, rfl⟩

theorem handOver (h : Due word q r c (k + 1) d) : Due word q r c k (d + 1) where
  reads_lt := h.reads_lt
  word_eq := by rw [h.word_eq, show k + 1 + d = k + (d + 1) by omega]
  due := by rw [← h.due]; omega

theorem reads_eq_zero (h : Due word q r c (k + 1) d) : q = true ∧ r = 0 := by
  have hd := h.due
  split_ifs at hd with hq
  · simpa using hq
  · omega

end Due

namespace Shared

variable {s : Shared ι} {i : ι}

def requested (s : Shared ι) : Bool := !s.requests.isEmpty

def closing (s : Shared ι) : Nat := total (·.task.closing) s.threads

def handing (s : Shared ι) : Nat := total (·.task.handing) s.threads

def Balanced (s : Shared ι) : Prop :=
  Due s.word s.requested s.reads s.closing s.handing s.handedOver

omit [Fintype ι] in
theorem put_self (s : Shared ι) (i : ι) : s.put i (s.threads i) = s := by
  simp [put]

theorem total_put (f : Thread → Nat) (s : Shared ι) (i : ι) :
    ∃ n, ∀ t, total f (s.put i t).threads = n + f t := by
  refine ⟨∑ j ∈ Finset.univ.erase i, f (s.threads j), fun t => ?_⟩
  have sum := Finset.sum_erase_add Finset.univ (fun j => f ((s.put i t).threads j))
    (Finset.mem_univ i)
  have others : ∑ j ∈ Finset.univ.erase i, f ((s.put i t).threads j) =
      ∑ j ∈ Finset.univ.erase i, f (s.threads j) :=
    Finset.sum_congr rfl fun j hj => by
      simp only [put, Function.update_of_ne (Finset.ne_of_mem_erase hj)]
  rw [total, ← sum, others]
  simp [put]

theorem exists_others (s : Shared ι) (i : ι) : ∃ r c k, ∀ reads task,
    (s.put i ⟨reads, task⟩).reads = r + reads ∧
      (s.put i ⟨reads, task⟩).closing = c + task.closing ∧
        (s.put i ⟨reads, task⟩).handing = k + task.handing := by
  obtain ⟨r, hr⟩ := total_put Thread.reads s i
  obtain ⟨c, hc⟩ := total_put (·.task.closing) s i
  obtain ⟨k, hk⟩ := total_put (·.task.handing) s i
  exact ⟨r, c, k, fun reads task => ⟨hr _, hc _, hk _⟩⟩

theorem Balanced.others (h : s.Balanced) (i : ι) : ∃ r c k,
    Due s.word s.requested (r + (s.threads i).reads) (c + (s.threads i).task.closing)
      (k + (s.threads i).task.handing) s.handedOver ∧ s.reads = r + (s.threads i).reads ∧
    ∀ {s' : Shared ι} {reads task word requested handedOver},
      s'.threads = (s.put i ⟨reads, task⟩).threads → s'.word = word → s'.requested = requested →
      s'.handedOver = handedOver →
      Due word requested (r + reads) (c + task.closing) (k + task.handing) handedOver →
      s'.Balanced := by
  -- What the other threads add to each total does not change.
  obtain ⟨r, c, k, hs⟩ := s.exists_others i
  have now := hs (s.threads i).reads (s.threads i).task
  rw [show (⟨(s.threads i).reads, (s.threads i).task⟩ : Thread) = s.threads i from rfl,
    put_self] at now
  refine ⟨r, c, k, ?_, now.1, ?_⟩
  · rw [← now.1, ← now.2.1, ← now.2.2]
    exact h
  · rintro s' reads task word requested handedOver ht rfl rfl rfl due
    obtain ⟨hr, hc, hk⟩ := hs reads task
    unfold Balanced Shared.reads Shared.closing Shared.handing
    rw [ht]
    change Due _ _ (s.put i ⟨reads, task⟩).reads (s.put i ⟨reads, task⟩).closing
      (s.put i ⟨reads, task⟩).handing _
    rw [hr, hc, hk]
    exact due

section Balance

variable (h : s.Balanced)

include h

theorem Balanced.put_free {t : Task} (hi : (s.threads i).task.Free) (ht : t.Free) :
    (s.put i ⟨(s.threads i).reads, t⟩).Balanced := by
  obtain ⟨r, c, k, due, -, keep⟩ := h.others i
  rw [hi.closing_eq, hi.handing_eq] at due
  exact keep rfl rfl rfl rfl (by rwa [ht.closing_eq, ht.handing_eq])

theorem Balanced.look {seen : Word} (hi : (s.threads i).task = .acquire seen) :
    (s.look i seen).Balanced := by
  unfold Shared.look
  split
  · exact h.put_free (t := .idle) (hi ▸ trivial) trivial
  · exact h.put_free (t := .acquire s.word) (hi ▸ trivial) trivial

theorem Balanced.exchange {seen : Word} (hi : (s.threads i).task = .acquire seen) :
    (s.exchange i seen).Balanced := by
  unfold Shared.exchange
  split
  · exact h.put_free (t := .idle) (hi ▸ trivial) trivial
  case _ word hw =>
    split_ifs with hs
    · subst hs
      obtain ⟨r, c, k, due, -, keep⟩ := h.others i
      rw [hi] at due
      exact keep rfl rfl rfl rfl (due.acquire hw).2
    · exact h.look hi

theorem Balanced.endRead (hi : (s.threads i).task = .idle) (hr : (s.threads i).reads ≠ 0) :
    (s.endRead i).Balanced := by
  obtain ⟨r, c, k, due, -, keep⟩ := h.others i
  obtain ⟨n, hn⟩ := Nat.exists_eq_succ_of_ne_zero hr
  rw [hi, hn, Nat.succ_eq_add_one, ← Nat.add_assoc] at due
  obtain ⟨word, hw, due⟩ := due.endRead
  have hp : (s.threads i).reads - 1 = n := by omega
  unfold Shared.endRead
  rw [hw, hp]
  cases hq : s.requested && decide (r + n = 0) with
  | true =>
    rw [hq] at due
    exact keep rfl rfl rfl rfl due
  | false =>
    rw [hq] at due
    exact keep rfl rfl rfl rfl due

theorem Balanced.ask (hi : (s.threads i).task = .idle) : (s.ask i).Balanced := by
  obtain ⟨r, c, k, due, hs, keep⟩ := h.others i
  rw [hi] at due
  obtain ⟨word, hw, due⟩ := due.request
  have hq : ∀ n, (!(s.requests ++ [n]).isEmpty) = true := by simp
  unfold Shared.ask
  rw [hw]
  cases hreq : s.requested with
  | true =>
    rw [hreq] at due
    exact keep rfl rfl (hq _) rfl due
  | false =>
    rw [hreq] at due
    cases hn : r + (s.threads i).reads with
    | zero =>
      rw [show decide (r + (s.threads i).reads = 0) = true from decide_eq_true hn] at due
      exact keep rfl rfl (hq _) rfl due
    | succ n =>
      rw [show decide (r + (s.threads i).reads = 0) = false from decide_eq_false (by omega)] at due
      exact keep rfl rfl (hq _) rfl due

theorem Balanced.close {request : Option Nat} (hi : (s.threads i).task = .close request) :
    (s.close i request).Balanced := by
  obtain ⟨r, c, k, due, -, keep⟩ := h.others i
  rw [hi] at due
  obtain ⟨hw, due⟩ := due.close
  unfold Shared.close
  rw [hw]
  exact keep rfl rfl rfl rfl due

theorem Balanced.handOver {request : Option Nat} (hi : (s.threads i).task = .handOver request) :
    (s.handOver i request).Balanced := by
  obtain ⟨r, c, k, due, -, keep⟩ := h.others i
  rw [hi] at due
  exact keep rfl rfl rfl rfl due.handOver

end Balance

def answerTo : Nat → Nat → Release
  | 0, 0 => .freed
  | 0, reads + 1 => .deferred (reads + 1)
  | _ + 1, _ => .alreadyRequested

/-- Each request has its answer, unless it is the first one and still at work. -/
structure Answered (s : Shared ι) : Prop where
  asking_first : ∀ i n, (s.threads i).task.request? = some n → n = 0 ∧ s.requests[0]? = some 0
  answers_eq : ∀ n r, (n, r) ∈ s.answers →
    ∃ reads, s.requests[n]? = some reads ∧ r = answerTo n reads
  answered_once : ∀ n, (s.answers.map Prod.fst).count n + total (·.task.asking n) s.threads =
    if n < s.requests.length then 1 else 0

theorem asking_put (s : Shared ι) (i : ι) (t : Thread) (n : Nat) :
    total (·.task.asking n) (s.put i t).threads + (s.threads i).task.asking n =
      total (·.task.asking n) s.threads + t.task.asking n := by
  obtain ⟨m, hm⟩ := total_put (·.task.asking n) s i
  have now := hm (s.threads i)
  rw [put_self] at now
  rw [hm t, now]
  omega

omit [Fintype ι] in
theorem asking_first_put {t : Thread} {P : Nat → Prop}
    (h : ∀ j n, (s.threads j).task.request? = some n → P n)
    (ht : ∀ n, t.task.request? = some n → P n) :
    ∀ j n, ((s.put i t).threads j).task.request? = some n → P n := by
  intro j n hj
  by_cases hji : j = i
  · subst hji
    exact ht n (by simpa [put] using hj)
  · exact h j n (by simpa [put, hji] using hj)

theorem answered_once_finish {answer : Option (Nat × Release)} {n m : Nat}
    (hi : (s.threads i).task.asking n = m) :
    ((s.finish i answer).answers.map Prod.fst).count n +
        total (·.task.asking n) (s.finish i answer).threads + m =
      (s.answers.map Prod.fst).count n + total (·.task.asking n) s.threads +
        (answer.toList.map Prod.fst).count n := by
  have asking := asking_put s i { s.threads i with task := .idle } n
  simp only [show Task.asking n .idle = 0 from rfl, Nat.add_zero] at asking
  simp only [finish, List.map_append, List.count_append]
  omega

theorem getElem?_append_some {requests tail : List Nat} {n reads : Nat}
    (hn : requests[n]? = some reads) : (requests ++ tail)[n]? = some reads := by
  rw [List.getElem?_append_left (List.getElem?_eq_some_iff.1 hn).1, hn]

section Answers

variable (h : s.Answered)

include h

theorem Answered.put {t : Thread} {word : Word}
    (same : t.task.request? = (s.threads i).task.request?) :
    Answered { s.put i t with word } where
  asking_first := asking_first_put h.asking_first fun n hn => h.asking_first i n (same ▸ hn)
  answers_eq := h.answers_eq
  answered_once n := by
    have asking := asking_put s i t n
    simp only [Task.asking, same] at asking
    exact (congrArg _ (Nat.add_right_cancel asking)).trans (h.answered_once n)

theorem Answered.finish {q : Option Nat} (hi : (s.threads i).task.request? = q) :
    (s.finish i (q.map (·, .freed))).Answered where
  asking_first := asking_first_put h.asking_first nofun
  answers_eq n r hn := by
    rcases List.mem_append.1 hn with hn | hn
    · obtain ⟨m, rfl, hm⟩ := Option.map_eq_some_iff.1 (Option.mem_toList.1 hn)
      obtain ⟨rfl, rfl⟩ := Prod.mk.inj hm
      obtain ⟨rfl, hfirst⟩ := h.asking_first i m hi
      exact ⟨0, hfirst, rfl⟩
    · exact h.answers_eq n r hn
  answered_once n := by
    have same : (s.threads i).task.asking n =
        ((q.map (·, Release.freed)).toList.map Prod.fst).count n := by
      cases q <;> simp [Task.asking, hi, List.count_singleton]
    exact (Nat.add_right_cancel (answered_once_finish same)).trans (h.answered_once n)

theorem Answered.finish_next {word : Word} {r : Release} (hi : (s.threads i).task = .idle)
    (hr : r = answerTo s.requests.length s.reads) :
    Answered ({ s with word, requests := s.requests ++ [s.reads] }.finish i
      (some (s.requests.length, r))) where
  asking_first := asking_first_put
    (fun j n hj => (h.asking_first j n hj).imp_right getElem?_append_some) nofun
  answers_eq n r' hn := by
    rcases List.mem_cons.1 hn with hn | hn
    · obtain ⟨rfl, rfl⟩ := Prod.mk.inj hn
      exact ⟨s.reads, List.getElem?_concat_length, hr⟩
    · obtain ⟨reads, hreads, hr'⟩ := h.answers_eq n r' hn
      exact ⟨reads, getElem?_append_some hreads, hr'⟩
  answered_once n := by
    have idle : (s.threads i).task.asking n = 0 := by rw [hi]; rfl
    refine (answered_once_finish (s := { s with word, requests := s.requests ++ [s.reads] })
      idle).trans ?_
    have now := h.answered_once n
    simp only [Option.toList_some, List.map_cons, List.map_nil, List.count_singleton, beq_iff_eq,
      Shared.finish, Shared.put, List.length_append, List.length_singleton]
    split_ifs at now ⊢ <;> omega

theorem Answered.put_first {word : Word} (hi : (s.threads i).task = .idle)
    (hs : s.requests = []) (hr : s.reads = 0) :
    Answered ({ s with word, requests := s.requests ++ [s.reads] }.put i
      { s.threads i with task := .close (some s.requests.length) }) where
  asking_first := asking_first_put
    (fun j n hj => (h.asking_first j n hj).imp_right getElem?_append_some)
    (by rintro n ⟨⟩; simp [hs, hr, Shared.put])
  answers_eq n r hn := by
    obtain ⟨reads, hreads, hr⟩ := h.answers_eq n r hn
    exact ⟨reads, getElem?_append_some hreads, hr⟩
  answered_once n := by
    have asking := asking_put s i { s.threads i with task := .close (some s.requests.length) } n
    have now := h.answered_once n
    simp only [hi, Task.asking, Task.request?, reduceCtorEq, if_false, Nat.add_zero,
      Option.some.injEq] at asking
    refine (congrArg _ asking).trans ?_
    rw [← Nat.add_assoc]
    refine (congrArg (· + _) now).trans ?_
    simp only [Shared.put, List.length_append, List.length_singleton]
    split_ifs <;> omega

theorem Answered.answer {word : Word} {first : Option Nat} (hi : (s.threads i).task = .idle)
    (hf : (if s.requested then none else some s.reads) = first) :
    Answered ({ s with word, requests := s.requests ++ [s.reads] }.answer i s.requests.length
      first) := by
  have empty : s.requested = false → s.requests = [] := by simp [requested]
  match first with
  | none =>
    refine h.finish_next hi ?_
    split_ifs at hf with hq
    cases hs : s.requests with
    | nil => simp [requested, hs] at hq
    | cons first rest => rfl
  | some 0 =>
    split_ifs at hf with hq
    exact h.put_first hi (empty (by simpa using hq)) (Option.some.inj hf)
  | some (reads + 1) =>
    split_ifs at hf with hq
    exact h.finish_next hi (by rw [empty (by simpa using hq), Option.some.inj hf]; rfl)

theorem Answered.ask (hb : s.Balanced) (hi : (s.threads i).task = .idle) : (s.ask i).Answered := by
  obtain ⟨word, hw, -⟩ := Due.request hb
  unfold Shared.ask
  rw [hw]
  exact h.answer hi rfl

theorem Answered.endRead (hi : (s.threads i).task = .idle) : (s.endRead i).Answered := by
  refine h.put ?_
  rw [hi]
  split <;> rfl

theorem Answered.look {seen : Word} (hi : (s.threads i).task = .acquire seen) :
    (s.look i seen).Answered := by
  unfold Shared.look
  split
  · exact h.finish (q := none) (by rw [hi]; rfl)
  · exact h.put (by rw [hi]; rfl)

theorem Answered.exchange {seen : Word} (hi : (s.threads i).task = .acquire seen) :
    (s.exchange i seen).Answered := by
  unfold Shared.exchange
  split
  · exact h.finish (q := none) (by rw [hi]; rfl)
  · split_ifs
    · exact h.put (by rw [hi]; rfl)
    · exact h.look hi

theorem Answered.close {request : Option Nat} (hi : (s.threads i).task = .close request) :
    (s.close i request).Answered := by
  unfold Shared.close
  split
  · exact h.finish (by rw [hi]; rfl)
  · exact h.put (by rw [hi]; rfl)

theorem Answered.handOver {request : Option Nat} (hi : (s.threads i).task = .handOver request) :
    (s.handOver i request).Answered := by
  obtain ⟨asking_first, answers_eq, answered_once⟩ := h.finish (q := request) (by rw [hi]; rfl)
  exact ⟨asking_first, answers_eq, answered_once⟩

end Answers

structure Sound (s : Shared ι) : Prop where
  balanced : s.Balanced
  answered : s.Answered

omit [DecidableEq ι] in
theorem Sound.fresh : Sound ({} : Shared ι) where
  balanced := by
    unfold Balanced Shared.reads Shared.closing Shared.handing
    simp only [total, Task.closing, Task.handing, Finset.sum_const_zero]
    exact Due.fresh
  answered := ⟨nofun, nofun, fun n => by simp [total, Task.asking, Task.request?]⟩

theorem Sound.drop (h : s.Sound) : (s.drop i).Sound := by
  unfold Shared.drop
  split_ifs with idle
  · have hi : (s.threads i).task = .idle := by rw [idle i]
    obtain ⟨asking_first, answers_eq, answered_once⟩ := h.answered.ask h.balanced hi
    exact ⟨h.balanced.ask hi, asking_first, answers_eq, answered_once⟩
  · exact h

theorem Sound.step (h : s.Sound) (i : ι) (a : Act) : (s.step i a).Sound := by
  unfold Shared.step
  split
  case _ hi => -- acquire
    split_ifs
    · exact h
    · exact ⟨h.balanced.put_free (hi ▸ trivial) trivial, h.answered.put (by rw [hi]; rfl)⟩
  case _ hi => -- endRead
    split_ifs with hr
    · exact h
    · exact ⟨h.balanced.endRead hi hr, h.answered.endRead hi⟩
  case _ hi => -- request
    split_ifs
    · exact h
    · exact ⟨h.balanced.ask hi, h.answered.ask h.balanced hi⟩
  case _ => -- drop
    split_ifs
    · exact h
    · exact h.drop
  case _ hi => exact ⟨h.balanced.exchange hi, h.answered.exchange hi⟩
  case _ hi => exact ⟨h.balanced.look hi, h.answered.look hi⟩
  case _ hi => exact ⟨h.balanced.close hi, h.answered.close hi⟩
  case _ hi => exact ⟨h.balanced.handOver hi, h.answered.handOver hi⟩
  case _ => exact h

theorem answerTo_eq_alreadyRequested {n reads : Nat} :
    answerTo n reads = .alreadyRequested ↔ n ≠ 0 := by
  match n, reads with
  | 0, 0 => simp [answerTo]
  | 0, reads + 1 => simp [answerTo]
  | n + 1, reads => simp [answerTo]

omit [DecidableEq ι] in
theorem Balanced.reads_eq_zero {request : Option Nat} (h : s.Balanced)
    (hi : (s.threads i).task = .handOver request) (j : ι) : (s.threads j).reads = 0 := by
  obtain ⟨n, hn⟩ : ∃ n, s.handing = n + 1 := by
    have := single_le_total (·.task.handing) s.threads i
    rw [hi] at this
    exact Nat.exists_eq_succ_of_ne_zero (Nat.pos_iff_ne_zero.1 this)
  unfold Balanced at h
  rw [hn] at h
  exact total_eq_zero.1 h.reads_eq_zero.2 j

omit [DecidableEq ι] in
theorem Balanced.finish?_eq {request : Option Nat} (h : s.Balanced)
    (hi : (s.threads i).task = .close request) : s.word.finish? = some .shut := by
  obtain ⟨n, hn⟩ : ∃ n, s.closing = n + 1 := by
    have := single_le_total (·.task.closing) s.threads i
    rw [hi] at this
    exact Nat.exists_eq_succ_of_ne_zero (Nat.pos_iff_ne_zero.1 this)
  unfold Balanced at h
  rw [hn] at h
  exact h.close.1

omit [DecidableEq ι] in
theorem Balanced.handedOver_eq (h : s.Balanced) (hq : s.requests ≠ [])
    (idle : ∀ i, s.threads i = {}) : s.handedOver = 1 := by
  have hd := Due.due h
  have hr : s.reads = 0 := total_eq_zero.2 fun i => by rw [idle i]
  have hc : s.closing = 0 := total_eq_zero.2 fun i => by rw [idle i]; rfl
  have hk : s.handing = 0 := total_eq_zero.2 fun i => by rw [idle i]; rfl
  have hs : s.requested = true := by simpa [requested] using hq
  simpa [hr, hc, hk, hs] using hd

omit [DecidableEq ι] in
theorem Answered.perm_range (h : s.Answered) (idle : ∀ i, (s.threads i).task = .idle) :
    (s.answers.map Prod.fst).Perm (List.range s.requests.length) := by
  refine List.perm_iff_count.2 fun n => ?_
  have once := h.answered_once n
  rw [total_eq_zero.2 fun i => by rw [idle i]; rfl, Nat.add_zero] at once
  rw [once, List.count_range]

end Shared

end QueryLease.Lease
