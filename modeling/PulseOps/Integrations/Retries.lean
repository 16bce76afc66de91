import PulseOps.Model.HttpClient

/-!
# Requests that are tried again

A request is sent until a reply is not worth another attempt, or the attempts are used up, and the
last reply is the answer. A request that is not idempotent is sent once. So what a provider is
asked to do it does at most once, also if its replies get lost: either it is asked once, or it
knows the request by its key.

## Main definitions

* `replies` — the replies to one request that is sent again and again.
* `worthRetrying`, `answer` — what the replies mean.
* `Provider` — a provider, and what it has carried out.

## Main results

* `requestWithRetry_eq` — which requests are sent, what pauses are made, and what the answer is.
* `done_at_most_once` — a call is carried out at most once.
-/

set_option autoImplicit false

namespace PulseOps.Integrations

variable {β W : Type} {toLowerCase : String → String} {o : Options}
  {fetch : W → Except FetchError (Response β) × W} {w : W} {left : ℕ}

/-! ### Replies -/

/-- The replies to `n` requests, one after the other, and what the provider's state is then. -/
def replies (fetch : W → Except FetchError (Response β) × W) :
    ℕ → W → List (Except FetchError (Response β)) × W
  | 0, w => ([], w)
  | n + 1, w => ((fetch w).1 :: (replies fetch n (fetch w).2).1, (replies fetch n (fetch w).2).2)

/-- Whether to try again after a reply, if it may be tried again. -/
def worthRetrying (toLowerCase : String → String) (o : Options) :
    Except FetchError (Response β) → Bool
  | .error e => (fetchFailure toLowerCase o e).isRetryable
  | .ok res => res.status = 408 ∨ res.status = 429 ∨ 500 ≤ res.status

/-- What a reply says. -/
def answer (toLowerCase : String → String) (o : Options) :
    Except FetchError (Response β) → Except IntegrationError (Response β)
  | .error e => .error (fetchFailure toLowerCase o e)
  | .ok res => if res.ok then .ok res else .error (statusError o.provider res.status)

theorem isRetryable_statusError (provider : String) (status : ℕ) :
    (statusError provider status).isRetryable = decide (status = 429 ∨ 500 ≤ status) := by
  unfold IntegrationError.isRetryable statusError
  split_ifs <;> simp_all <;> omega

/-- A status that is tried again without a look at the error. -/
theorem le_of_isRetryableStatus {status : ℕ} (h : isRetryableStatus status = true) :
    status = 408 ∨ status = 429 ∨ 500 ≤ status := by
  simp only [isRetryableStatus, decide_eq_true_eq] at h
  omega

theorem maxAttempts_eq_one (h : o.idempotent = false) : o.maxAttempts = 1 := by
  simp [Options.maxAttempts, h]

/-- One round of the loop. -/
theorem requestLoop_succ (toLowerCase : String → String)
    (fetch : W → Except FetchError (Response β) × W) (w : W) (lastError : Option IntegrationError)
    (hleft : left < o.maxAttempts) :
    ∃ lastError', requestLoop toLowerCase o fetch o.maxAttempts (left + 1) lastError w =
      if worthRetrying toLowerCase o (fetch w).1 ∧ left ≠ 0 then
        (requestLoop toLowerCase o fetch o.maxAttempts left lastError' (fetch w).2).afterPause
          (o.retryDelayMs * (o.maxAttempts - left))
      else ⟨(answer toLowerCase o (fetch w).1).mapError some, [], (fetch w).2⟩ := by
  have hmax : o.maxAttempts ≤ o.maxAttempts - left ↔ left = 0 := by omega
  have hlt : o.maxAttempts - left < o.maxAttempts ↔ left ≠ 0 := by omega
  -- only an idempotent request has rounds left
  have hidempotent : left ≠ 0 → o.idempotent = true := by
    intro hne
    by_contra hnot
    have hone := maxAttempts_eq_one (Bool.eq_false_iff.mpr hnot)
    omega
  simp only [requestLoop, fetchWithTimeout]
  rcases fetch w with ⟨reply, w'⟩
  cases reply with
  | error e =>
    use some (fetchFailure toLowerCase o e)
    by_cases hagain : (fetchFailure toLowerCase o e).isRetryable = true ∧ left ≠ 0
    · simp [worthRetrying, hagain, hmax, hidempotent hagain.2]
    · have hend : (fetchFailure toLowerCase o e).isRetryable = false ∨ left = 0 := by
        simpa [or_iff_not_imp_left] using hagain
      rcases hend with hend | rfl
      · simp [worthRetrying, answer, hend, Except.mapError]
      · simp [answer, Except.mapError]
  | ok res =>
    by_cases hok : res.ok = true
    · -- a response that is ok has no status that is tried again
      use none
      have hstatus : ¬ (res.status = 408 ∨ res.status = 429 ∨ 500 ≤ res.status) := by
        simp only [Response.ok, decide_eq_true_eq] at hok
        omega
      simp [worthRetrying, answer, hok, hstatus, Except.mapError]
    · by_cases hzero : left = 0
      · use none
        subst hzero
        simp [answer, hok, Except.mapError]
      · by_cases hagain : isRetryableStatus res.status = true
        · use lastError
          have hworth := le_of_isRetryableStatus hagain
          simp [worthRetrying, hok, hagain, hworth, hlt, hzero]
        · use lastError
          have hne : res.status ≠ 408 := by
            intro heq
            simp [isRetryableStatus, heq] at hagain
          by_cases herror : res.status = 429 ∨ 500 ≤ res.status
          · simp [worthRetrying, hok, hagain, herror, hlt, hzero, hidempotent hzero,
              isRetryable_statusError]
          · simp [worthRetrying, answer, hok, hagain, hne, herror, isRetryable_statusError,
              Except.mapError]

/-- How a call of `requestWithRetry` ends, if it has `left` more attempts after the next: all but
the last of the replies are worth another attempt, and the last is unless it is the answer. -/
structure Ends (toLowerCase : String → String) (o : Options)
    (fetch : W → Except FetchError (Response β) × W) (left : ℕ) (w : W) (out : Outcome β W)
    (failed : List (Except FetchError (Response β)))
    (last : Except FetchError (Response β)) : Prop where
  replies_eq : replies fetch (failed.length + 1) w = (failed ++ [last], out.state)
  length_le : failed.length ≤ left
  failed_worth : ∀ reply ∈ failed, worthRetrying toLowerCase o reply = true
  last_worth : worthRetrying toLowerCase o last = true → failed.length = left
  result_eq : out.result = (answer toLowerCase o last).mapError some

/-- The loop from any round on. -/
theorem requestLoop_ends (toLowerCase : String → String)
    (fetch : W → Except FetchError (Response β) × W) (w : W) (lastError : Option IntegrationError)
    (hleft : left < o.maxAttempts) :
    ∃ failed last, Ends toLowerCase o fetch left w
        (requestLoop toLowerCase o fetch o.maxAttempts (left + 1) lastError w) failed last ∧
      (requestLoop toLowerCase o fetch o.maxAttempts (left + 1) lastError w).pauses =
        (List.range failed.length).map fun i => o.retryDelayMs * (o.maxAttempts - left + i) := by
  induction left generalizing lastError w with
  | zero =>
    obtain ⟨_, heq⟩ := requestLoop_succ toLowerCase fetch w lastError hleft
    rw [if_neg (by simp)] at heq
    rw [heq]
    exact ⟨[], (fetch w).1, ⟨rfl, le_rfl, by simp, fun _ => rfl, rfl⟩, rfl⟩
  | succ left ih =>
    obtain ⟨lastError', heq⟩ :=
      requestLoop_succ toLowerCase fetch w lastError hleft
    rw [heq]
    by_cases hworth : worthRetrying toLowerCase o (fetch w).1 = true
    · rw [if_pos ⟨hworth, by simp⟩]
      obtain ⟨failed, last, hends, hpauses⟩ :=
        ih (fetch w).2 lastError' (by omega)
      refine ⟨(fetch w).1 :: failed, last, ⟨?_, ?_, ?_, ?_, hends.result_eq⟩, ?_⟩
      · rw [List.length_cons, replies, hends.replies_eq]
        rfl
      · rw [List.length_cons]
        exact Nat.succ_le_succ hends.length_le
      · rw [List.forall_mem_cons]
        exact ⟨hworth, hends.failed_worth⟩
      · intro hlast
        rw [List.length_cons, hends.last_worth hlast]
      · -- the pauses of the later rounds are counted from one round earlier
        have hshift (i : ℕ) : o.maxAttempts - left + i = o.maxAttempts - (left + 1) + (i + 1) := by
          omega
        rw [Outcome.afterPause, hpauses, List.length_cons, List.range_succ_eq_map, List.map_cons,
          List.map_map, Nat.add_zero]
        simp only [hshift]
        rfl
    · rw [if_neg (by simp [hworth])]
      exact ⟨[], (fetch w).1, ⟨rfl, by simp, by simp, fun h => absurd h hworth, rfl⟩, rfl⟩

/-- The loop from its first round on. -/
theorem requestWithRetry_ends (toLowerCase : String → String) (o : Options)
    (fetch : W → Except FetchError (Response β) × W) (w : W) :
    ∃ left failed last, left + 1 = o.maxAttempts ∧
      Ends toLowerCase o fetch left w (requestWithRetry toLowerCase o fetch w) failed last ∧
      (requestWithRetry toLowerCase o fetch w).pauses =
        (List.range failed.length).map fun i => o.retryDelayMs * (i + 1) := by
  have hpos : 0 < o.maxAttempts := by
    unfold Options.maxAttempts
    split_ifs <;> omega
  obtain ⟨left, hleft⟩ := Nat.exists_eq_succ_of_ne_zero hpos.ne'
  have hfirst (i : ℕ) : o.maxAttempts - left + i = i + 1 := by omega
  obtain ⟨failed, last, hends, hpauses⟩ :=
    requestLoop_ends toLowerCase fetch w none
      (show left < o.maxAttempts by omega)
  rw [← Nat.succ_eq_add_one, ← hleft] at hends hpauses
  simp only [hfirst] at hpauses
  exact ⟨left, failed, last, hleft.symm, hends, hpauses⟩

/-- The request is sent until a reply is not worth another attempt or the attempts are used up,
each time after a longer pause, and the last reply is the answer. -/
theorem requestWithRetry_eq (toLowerCase : String → String) (o : Options)
    (fetch : W → Except FetchError (Response β) × W) (w : W) :
    ∃ failed last,
      replies fetch (failed.length + 1) w =
        (failed ++ [last], (requestWithRetry toLowerCase o fetch w).state) ∧
      failed.length < o.maxAttempts ∧
      (∀ reply ∈ failed, worthRetrying toLowerCase o reply = true) ∧
      (worthRetrying toLowerCase o last = true → failed.length + 1 = o.maxAttempts) ∧
      (requestWithRetry toLowerCase o fetch w).result =
        (answer toLowerCase o last).mapError some ∧
      (requestWithRetry toLowerCase o fetch w).pauses =
        (List.range failed.length).map fun i => o.retryDelayMs * (i + 1) := by
  obtain ⟨left, failed, last, hleft, hends, hpauses⟩ :=
    requestWithRetry_ends toLowerCase o fetch w
  refine ⟨failed, last, hends.replies_eq, ?_, hends.failed_worth, ?_, hends.result_eq, hpauses⟩
  · have := hends.length_le
    omega
  · intro hlast
    rw [hends.last_worth hlast, hleft]

/-! ### What the provider does -/

/-- A provider that carries out a request at most once when it gets it, and not at all if it has
carried out one with the same key. `done` lists what it has carried out, newest first. -/
structure Provider (β W : Type) where
  fetch : HttpRequest → W → Except FetchError (Response β) × W
  done : W → List HttpRequest
  done_fetch (r : HttpRequest) (w : W) :
    done (fetch r w).2 = done w ∨ done (fetch r w).2 = r :: done w
  done_known (r r' : HttpRequest) (w : W) : r.idempotencyKey.isSome → r' ∈ done w →
    r'.idempotencyKey = r.idempotencyKey → done (fetch r w).2 = done w

namespace Provider

variable {P : Provider β W} {r r' : HttpRequest}

/-- A request that the provider knows has no effect any more. -/
theorem done_replies_known (hkey : r.idempotencyKey.isSome)
    (heq : r'.idempotencyKey = r.idempotencyKey) (n : ℕ) (hdone : r' ∈ P.done w) :
    P.done (replies (P.fetch r) n w).2 = P.done w := by
  induction n generalizing w with
  | zero => rfl
  | succ n ih =>
    have hsame := P.done_known r r' w hkey hdone heq
    rw [replies, ih (by rwa [hsame]), hsame]

/-- A request with a key is carried out at most once, no matter how often it is sent. -/
theorem done_replies (hkey : r.idempotencyKey.isSome) (n : ℕ) :
    P.done (replies (P.fetch r) n w).2 = P.done w ∨
      P.done (replies (P.fetch r) n w).2 = r :: P.done w := by
  induction n generalizing w with
  | zero => exact .inl rfl
  | succ n ih =>
    rcases P.done_fetch r w with hsame | hdone
    · have hrest := ih (w := (P.fetch r w).2)
      rwa [hsame] at hrest
    · right
      rw [replies, done_replies_known hkey rfl n (by rw [hdone]; exact List.mem_cons_self), hdone]

/-- The same of `requestWithRetry`, which sends a request without a key only once. -/
theorem done_requestWithRetry (toLowerCase : String → String) (P : Provider β W) (o : Options)
    (r : HttpRequest) (hkey : o.idempotent = true → r.idempotencyKey.isSome) (w : W) :
    P.done (requestWithRetry toLowerCase o (P.fetch r) w).state = P.done w ∨
      P.done (requestWithRetry toLowerCase o (P.fetch r) w).state = r :: P.done w := by
  obtain ⟨left, failed, last, hleft, hends, -⟩ :=
    requestWithRetry_ends toLowerCase o (P.fetch r) w
  have hstate : (requestWithRetry toLowerCase o (P.fetch r) w).state =
      (replies (P.fetch r) (failed.length + 1) w).2 := by
    rw [hends.replies_eq]
  rw [hstate]
  cases hidempotent : o.idempotent with
  | true => exact done_replies (hkey hidempotent) _
  | false =>
    have honce := maxAttempts_eq_one hidempotent
    have hle := hends.length_le
    have hzero : failed.length = 0 := by omega
    rw [hzero]
    exact P.done_fetch r w

end Provider

/-- A charge, a refund, a mail, a text message or a shipment is carried out at most once by a
call, no matter which replies get lost. -/
theorem done_at_most_once (toLowerCase : String → String) (P : Provider β W) (p : HttpProvider)
    (c : Call) (w : W) :
    P.done (c.run toLowerCase P.fetch p w).2 = P.done w ∨
      ∃ baseUrl, truthy p.baseUrl = some baseUrl ∧ c.check = .ok () ∧
        P.done (c.run toLowerCase P.fetch p w).2 = c.request p baseUrl :: P.done w := by
  unfold Call.run
  cases hurl : truthy p.baseUrl with
  | none => exact .inl rfl
  | some baseUrl =>
    cases hcheck : c.check with
    | error e => exact .inl rfl
    | ok _ =>
      have hdone := P.done_requestWithRetry toLowerCase (c.options p)
        (c.request p baseUrl) id w
      exact hdone.imp_right fun h => ⟨baseUrl, rfl, rfl, h⟩

/-- A provider that knows its requests by their keys. Its first reply gets lost. -/
def lossy : Provider Unit (ℕ × List HttpRequest) where
  fetch r w :=
    (if w.1 = 0 then .error { name := some "AbortError" } else .ok ⟨200, ()⟩,
      w.1 + 1,
      if r.idempotencyKey.isSome ∧ w.2.any (·.idempotencyKey = r.idempotencyKey) then w.2
      else r :: w.2)
  done w := w.2
  done_fetch r w := by
    dsimp only
    split_ifs
    · exact .inl rfl
    · exact .inr rfl
  done_known r r' w hkey hdone heq := by
    have hany : w.2.any (·.idempotencyKey = r.idempotencyKey) = true := by
      rw [List.any_eq_true]
      exact ⟨r', hdone, by simpa using heq⟩
    simp [hkey, hany]

/-- The charge is sent twice. -/
theorem done_at_most_once_lossy :
    let c := Call.charge 49950 "INR" "o1" "t1" (some "t1:o1:49950")
    let end_ := c.run id lossy.fetch ⟨some "https://pay", none, 5000, 2⟩ (0, [])
    end_.1.toOption.isSome = true ∧ end_.2.1 = 2 ∧
      (lossy.done end_.2 = [] ∨ ∃ baseUrl, truthy (some "https://pay") = some baseUrl ∧
        c.check = .ok () ∧ lossy.done end_.2 = [c.request ⟨some "https://pay", none, 5000, 2⟩
          baseUrl]) := by
  intro c end_
  refine ⟨by decide +kernel, by decide +kernel, ?_⟩
  exact done_at_most_once id lossy ⟨some "https://pay", none, 5000, 2⟩ c (0, [])

end PulseOps.Integrations
