import A2AGateway.Lib.Retry
import A2AGateway.RoutingDecision
import A2AGateway.Sdk

/-!
# The retry loop (`a2a-sdk/src/client.rs:52-89`)

`GatewayClient.send` (`Sdk.lean`) counts the retries down on `Nat`. The code counts the attempts up, on a
`u32`, and compares the counter with the limit before it tries again; on the way it computes the next delay
in floating point and makes a `Duration` of it. Both get in the way of the bound (`bounded_iff`): with
`retries = u32::MAX` the counter never passes the limit, and a `backoff_factor` that leads to a delay no
`Duration` can hold ends the call with a panic.

| here | there |
| --- | --- |
| `TimedCallOptions`      | `options.rs:4-27`, with the timeout and the factor |
| `attemptOnce`           | one turn of the loop, against answers that are given in advance |
| `GatewayClient.turn`    | the same turn, against a gateway that is asked |
| `GatewayClient.callFor` | the call, as far as its first turns |

What the loop comes to against a gateway is settled by what this answers (`GatewayClient.exec_callFor`), so when it
returns a value can be said exactly (`GatewayClient.callFor_returns_iff`); and where the bound holds, it does what
`send` does (`GatewayClient.exec_send`).

`Request::set_timeout` is a parameter, the value of the header it writes; `none` is its panic. How long the
loop sleeps is left out.
-/

namespace A2AGateway

/-! ## Delays -/

/-- `f64::signum`, with 0 for the zeros and for NaN. -/
def F64.sign : F64 → Int
  | .nan => 0
  | .negInf => -1
  | .posInf => 1
  | .fin q => if q < 0 then -1 else if q = 0 then 0 else 1

/-- `a * b` on `f64`; an infinity times zero is NaN. -/
def F64.mul : F64 → F64 → F64
  | .fin p, .fin q => nearest (p * q)
  | a, b =>
    match a.sign * b.sign with
    | 1 => .posInf
    | -1 => .negInf
    | _ => .nan

/-- `std::time::Duration`: seconds in a `u64`, and nanoseconds. -/
structure Duration where
  nanos : Nat
  fits : nanos < 2 ^ 64 * 10 ^ 9
deriving DecidableEq

namespace Duration

def fromMillis (n : UInt32) : Duration := ⟨n.toNat * 10 ^ 6, by have := n.toNat_lt; omega⟩

def fromSecs (n : UInt64) : Duration := ⟨n.toNat * 10 ^ 9, by have := n.toNat_lt; omega⟩

/-- The seconds and the nanoseconds are converted one by one, then added. -/
def asSecsF64 (d : Duration) : F64 :=
  (F64.nearest (d.nanos / 10 ^ 9 : Nat)).add (F64.nearest ((d.nanos % 10 ^ 9 : Nat) / 10 ^ 9))

/-- Rounded to the nearest nanosecond; `none` is the panic on what is negative, too large or no number. -/
def fromSecsF64 : F64 → Option Duration
  | .fin q =>
    if h : 0 ≤ q ∧ (nearestEven (q * 10 ^ 9)).toNat < 2 ^ 64 * 10 ^ 9 then some ⟨_, h.2⟩ else none
  | _ => none

/-- `Duration::from_secs_f64(delay.as_secs_f64() * backoff_factor)`. -/
def backoff (factor : F64) (delay : Duration) : Option Duration := fromSecsF64 (delay.asSecsF64.mul factor)

/-- A factor of one leaves 200 ms as it is. -/
theorem backoff_one : backoff (.fin 1) (fromMillis 200) = some (fromMillis 200) := by decide +kernel

end Duration

/-! ## The loop -/

/-- `CallOptions` with what times the attempts. -/
structure TimedCallOptions extends CallOptions where
  timeout : Duration := .fromSecs 30
  backoffFactor : F64 := .fin 2

/-- How a call ends, with the number of attempts that were answered. -/
inductive CallEnd
  | returned (answered : Nat) (r : Except SdkError Json)
  | panicked (answered : Nat)

/-- What a turn finds: the counter, the next delay, and how many attempts the server has answered. -/
structure Attempts where
  attempt : UInt32
  delay : Duration
  answered : Nat

def Attempts.start : Attempts := ⟨0, .fromMillis 200, 0⟩

/-- How many attempts the counter can count without passing `u32::MAX`: to add one there is a panic, or it
leads to 0 and the attempt is made. -/
def Build.countable : Build → Nat
  | debug => 2 ^ 32 - 1
  | release => 2 ^ 32

theorem Build.countable_le (b : Build) : b.countable ≤ 2 ^ 32 := by cases b <;> decide

theorem Build.le_countable (b : Build) : 2 ^ 32 - 1 ≤ b.countable := by cases b <;> decide

theorem Build.succ_isSome {b : Build} {n : UInt32} : (∃ next, b.succ n = some next) ↔ n.toNat < b.countable := by
  have hlt := n.toNat_lt
  have hmax : n = 0xFFFFFFFF ↔ n.toNat = 4294967295 := UInt32.toNat_inj.symm
  cases b with
  | debug =>
    by_cases h : n = 0xFFFFFFFF
    · simp [succ, countable, h]
    · have hn := mt hmax.2 h
      simp only [succ, countable, if_neg h, Option.some.injEq, exists_eq', true_iff]
      omega
  | release => simpa [succ, countable] using hlt

/-- The delay after `n` retries. -/
def delayAfter (factor : F64) : Nat → Option Duration
  | 0 => some (.fromMillis 200)
  | n + 1 => (delayAfter factor n).bind (Duration.backoff factor)

theorem delayAfter_of_le {factor : F64} {m n : Nat} (hm : m ≤ n) (hn : ∃ d, delayAfter factor n = some d) :
    ∃ d, delayAfter factor m = some d := by
  induction n, hm using Nat.le_induction with
  | base => exact hn
  | succ n hm ih =>
    obtain ⟨d, hd⟩ := hn
    obtain ⟨before, hbefore, -⟩ := Option.bind_eq_some_iff.1 hd
    exact ih ⟨before, hbefore⟩

/-- After `n` retries the counter stands at `n`, as far as it can, beside the delay after so many. -/
def Retried (factor : F64) (n : Nat) (s : Attempts) : Prop :=
  s.attempt = UInt32.ofNat n ∧ delayAfter factor n = some s.delay ∧ s.answered = n

theorem retried_start (factor : F64) : Retried factor 0 .start := ⟨rfl, rfl, rfl⟩

theorem toNat_ofNat {n : Nat} (hn : n < 2 ^ 32) : (UInt32.ofNat n).toNat = n :=
  (UInt32.toNat_ofNat' (n := n)).trans (Nat.mod_eq_of_lt hn)

/-- The counter goes on, unless a debug build cannot count further. -/
theorem Build.succ_ofNat {b : Build} {n : Nat} (hn : b = .debug → n < 2 ^ 32 - 1) :
    b.succ (UInt32.ofNat n) = some (UInt32.ofNat (n + 1)) := by
  have hadd : UInt32.ofNat n + 1 = UInt32.ofNat (n + 1) := (UInt32.ofNat_add n 1).symm
  cases b with
  | release => rw [succ, hadd]
  | debug =>
    have hlt := hn rfl
    have hne : UInt32.ofNat n ≠ 0xFFFFFFFF := by
      intro he
      have hnat : (UInt32.ofNat n).toNat = 4294967295 := by rw [he]; rfl
      rw [toNat_ofNat (by omega)] at hnat
      omega
    rw [succ, if_neg hne, hadd]

theorem Build.counted_of_succ {b : Build} {n : Nat} {next : UInt32} (hn : b = .debug → n ≤ 2 ^ 32 - 1)
    (hnext : b.succ (UInt32.ofNat n) = some next) : b = .debug → n < 2 ^ 32 - 1 := by
  rintro rfl
  have hle := hn rfl
  have hlt := Build.succ_isSome.1 ⟨next, hnext⟩
  rwa [toNat_ofNat (by omega)] at hlt

/-- So many retries are within the limit: it is above every count, or the count is not above it. -/
def CallOptions.Limits (opts : CallOptions) (n : Nat) : Prop := opts.retries = 0xFFFFFFFF ∨ n ≤ opts.retries.toNat

theorem CallOptions.limits_succ {opts : CallOptions} {n : Nat} (hn : opts.Limits n) :
    opts.Limits (n + 1) ↔ UInt32.ofNat (n + 1) ≤ opts.retries := by
  by_cases hmax : opts.retries = 0xFFFFFFFF
  · refine iff_of_true (.inl hmax) ?_
    rw [hmax]
    exact UInt32.le_iff_toNat_le.2 (Nat.le_of_lt_succ (UInt32.ofNat (n + 1)).toNat_lt)
  · have hlt := opts.retries.toNat_lt
    have hne : opts.retries.toNat ≠ 4294967295 := fun h => hmax (UInt32.toNat_inj.1 h)
    have hle : n ≤ opts.retries.toNat := hn.resolve_left hmax
    rw [UInt32.le_iff_toNat_le, toNat_ofNat (by omega)]
    exact or_iff_right hmax

theorem CallOptions.Limits.mono {opts : CallOptions} {m n : Nat} (h : opts.Limits n) (hm : m ≤ n) : opts.Limits m :=
  h.imp_right (Nat.le_trans hm)

section
variable [SerdeJson] (setTimeout : Duration → Option String) (b : Build) (opts : TimedCallOptions)
  (answers : Nat → Except Status CallResponse)

/-- The body of a successful response: the agent's error, or its result. -/
def readBody (body : CallResponse) : Except SdkError Json :=
  if body.error ≠ "" then .error (.msg s!"agent error: {body.error}")
  else
    match SerdeJson.fromSlice body.result with
    | .ok value => .ok value
    | .error _ => .error (.msg "invalid JSON in call response")

/-- What the call returns if this answer is the last. -/
def outcomeOf : Except Status CallResponse → Except SdkError Json
  | .ok body => readBody body
  | .error status => .error (.status status)

/-- One turn of `loop`. -/
def attemptOnce (s : Attempts) : Loops.Turn Attempts CallEnd :=
  match b.succ s.attempt with
  | none => .stop (.panicked s.answered)
  | some attempt =>
    match setTimeout opts.timeout with
    | none => .stop (.panicked s.answered)
    | some _ =>
      match answers s.answered with
      | .ok body => .stop (.returned (s.answered + 1) (readBody body))
      | .error status =>
        if attempt ≤ opts.retries ∧ isRetryable status.code = true then
          match s.delay.backoff opts.backoffFactor with
          | none => .stop (.panicked (s.answered + 1))
          | some delay => .again ⟨attempt, delay, s.answered + 1⟩
        else .stop (.returned (s.answered + 1) (.error (.status status)))

/-- The first `n` turns. -/
def attempts (n : Nat) : Loops.Turn Attempts CallEnd := Loops.turns (attemptOnce setTimeout b opts answers) n .start

/-! ## The bound -/

/-- The answer is a status that may be tried again. -/
def Retryable : Except Status CallResponse → Prop
  | .ok _ => False
  | .error status => isRetryable status.code = true

instance : DecidablePred Retryable
  | .ok _ => .isFalse id
  | .error status => inferInstanceAs (Decidable (isRetryable status.code = true))

/-- The call ends with its `n + 1`st attempt, `n` at most `retries`: the first that is not to be tried again,
or the last that is allowed. -/
def Bounded : Prop :=
  ∃ n ≤ opts.retries.toNat, (∀ i < n, Retryable (answers i)) ∧ (¬ Retryable (answers n) ∨ n = opts.retries.toNat) ∧
    attempts setTimeout b opts answers (n + 1) = .stop (.returned (n + 1) (outcomeOf (answers n)))

/-- With the largest limit, one of the attempts that can be counted is not to be tried again. -/
def CounterHolds : Prop := opts.retries = 0xFFFFFFFF → ∃ i < b.countable, ¬ Retryable (answers i)

/-- The delays of the retries that are made are durations. -/
def DelaysHold : Prop :=
  ∀ n ≤ opts.retries.toNat, (∀ i < n, Retryable (answers i)) → ∃ d, delayAfter opts.backoffFactor n = some d

variable {setTimeout b opts answers} {s : Attempts} {header : String}

/-! ### One turn -/

theorem attemptOnce_retry {next : UInt32} {d : Duration} (hnext : b.succ s.attempt = some next)
    (htimeout : setTimeout opts.timeout = some header) (hr : Retryable (answers s.answered))
    (hle : next ≤ opts.retries) (hd : s.delay.backoff opts.backoffFactor = some d) :
    attemptOnce setTimeout b opts answers s = .again ⟨next, d, s.answered + 1⟩ := by
  cases ha : answers s.answered with
  | ok body => simp [ha, Retryable] at hr
  | error status =>
    rw [ha] at hr
    simp [attemptOnce, hnext, htimeout, ha, hle, show isRetryable status.code = true from hr, hd]

theorem attemptOnce_last {next : UInt32} (hnext : b.succ s.attempt = some next)
    (htimeout : setTimeout opts.timeout = some header)
    (hlast : ¬ Retryable (answers s.answered) ∨ opts.retries < next) :
    attemptOnce setTimeout b opts answers s = .stop (.returned (s.answered + 1) (outcomeOf (answers s.answered))) := by
  cases ha : answers s.answered with
  | ok body => simp [attemptOnce, hnext, htimeout, ha, outcomeOf]
  | error status =>
    rw [ha] at hlast
    have hstop : ¬ (next ≤ opts.retries ∧ isRetryable status.code = true) := by
      rintro ⟨hle, hcode⟩
      rcases hlast with h | h
      · exact h hcode
      · exact absurd hle (UInt32.not_le.2 h)
    simp [attemptOnce, hnext, htimeout, ha, hstop, outcomeOf]

/-- A turn that leaves the loop with a result had a header, a counter and an answer that was the last. -/
theorem attemptOnce_returned {k : Nat} {r : Except SdkError Json}
    (h : attemptOnce setTimeout b opts answers s = .stop (.returned k r)) :
    (∃ header, setTimeout opts.timeout = some header) ∧
      (∃ next, b.succ s.attempt = some next ∧ (Retryable (answers s.answered) → opts.retries < next)) ∧
      k = s.answered + 1 ∧ r = outcomeOf (answers s.answered) := by
  unfold attemptOnce at h
  split at h
  · cases h
  · rename_i next hnext
    split at h
    · cases h
    · rename_i header hheader
      refine ⟨⟨header, hheader⟩, ⟨next, hnext, fun hr => ?_⟩, ?_⟩
      · split at h
        · rename_i body ha
          simp [ha, Retryable] at hr
        · rename_i status ha
          rw [ha] at hr
          split at h
          · split at h <;> cases h
          · rename_i hstop
            exact UInt32.not_le.1 fun hle => hstop ⟨hle, hr⟩
      · split at h
        · rename_i body ha
          cases h
          exact ⟨rfl, by rw [ha, outcomeOf]⟩
        · rename_i status ha
          split at h
          · split at h <;> cases h
          · cases h
            exact ⟨rfl, by rw [ha, outcomeOf]⟩

/-- A turn that goes on had all that it needs, and an answer that may be tried again. -/
theorem attemptOnce_again {t : Attempts} (h : attemptOnce setTimeout b opts answers s = .again t) :
    ∃ next d, b.succ s.attempt = some next ∧ Retryable (answers s.answered) ∧ next ≤ opts.retries ∧
      s.delay.backoff opts.backoffFactor = some d ∧ t = ⟨next, d, s.answered + 1⟩ := by
  unfold attemptOnce at h
  split at h
  · cases h
  · rename_i next hnext
    split at h
    · cases h
    · split at h
      · cases h
      · rename_i status ha
        split at h
        · rename_i hagain
          split at h
          · cases h
          · rename_i d hd
            cases h
            exact ⟨next, d, hnext, by rw [ha]; exact hagain.2, hagain.1, hd, rfl⟩
        · cases h

/-- Nor does it have a delay to compute. -/
theorem attemptOnce_backoff_none {next : UInt32} (hnext : b.succ s.attempt = some next)
    (htimeout : setTimeout opts.timeout = some header) (hr : Retryable (answers s.answered))
    (hle : next ≤ opts.retries) (hd : s.delay.backoff opts.backoffFactor = none) :
    attemptOnce setTimeout b opts answers s = .stop (.panicked (s.answered + 1)) := by
  cases ha : answers s.answered with
  | ok body => simp [ha, Retryable] at hr
  | error status =>
    rw [ha] at hr
    simp [attemptOnce, hnext, htimeout, ha, hle, show isRetryable status.code = true from hr, hd]

/-! ### The turns before the last -/

/-- **While the answers may be tried again, the limit and the counter let them and the delays are durations, the loop
goes on.** -/
theorem attempts_allowed {n : Nat} (htimeout : setTimeout opts.timeout = some header) (hlimits : opts.Limits n)
    (hcount : b = .debug → n ≤ 2 ^ 32 - 1) (hdelays : ∃ d, delayAfter opts.backoffFactor n = some d)
    (hr : ∀ i < n, Retryable (answers i)) :
    ∃ s, attempts setTimeout b opts answers n = .again s ∧ Retried opts.backoffFactor n s := by
  refine Loops.turns_inv (retried_start _) n fun i hi s hs => ?_
  obtain ⟨hattempt, hdelay, hanswered⟩ := hs
  have hnext : b.succ s.attempt = some (UInt32.ofNat (i + 1)) := by
    rw [hattempt]
    exact Build.succ_ofNat fun hb => Nat.lt_of_lt_of_le hi (hcount hb)
  have hle : UInt32.ofNat (i + 1) ≤ opts.retries :=
    (CallOptions.limits_succ (hlimits.mono (Nat.le_of_lt hi))).1 (hlimits.mono hi)
  obtain ⟨d, hd⟩ := delayAfter_of_le hi hdelays
  have hbackoff : s.delay.backoff opts.backoffFactor = some d := by simpa [delayAfter, hdelay] using hd
  exact ⟨_, attemptOnce_retry hnext htimeout (hanswered ▸ hr i hi) hle hbackoff, rfl, hd, congrArg (· + 1) hanswered⟩

/-- Up to the limit it has counted them. -/
theorem attempts_retried {n : Nat} (htimeout : setTimeout opts.timeout = some header)
    (hdelays : ∃ d, delayAfter opts.backoffFactor n = some d) (hn : n ≤ opts.retries.toNat)
    (hr : ∀ i < n, Retryable (answers i)) :
    ∃ s, attempts setTimeout b opts answers n = .again s ∧ Retried opts.backoffFactor n s ∧ s.attempt.toNat = n := by
  have hlt := opts.retries.toNat_lt
  obtain ⟨s, hagain, hs⟩ := attempts_allowed (b := b) htimeout (.inr hn) (fun _ => by omega) hdelays hr
  refine ⟨s, hagain, hs, ?_⟩
  rw [hs.1]
  exact toNat_ofNat (by omega)

/-! ### Where the bound holds -/

/-- The turn that ends a bounded call, from the state that the turns before it have led to. -/
theorem Bounded.attemptOnce {n : Nat} {r : Except SdkError Json}
    (h : attempts setTimeout b opts answers (n + 1) = .stop (.returned (n + 1) r))
    (hagain : attempts setTimeout b opts answers n = .again s) :
    attemptOnce setTimeout b opts answers s = .stop (.returned (n + 1) r) := by
  rw [← h, attempts, Loops.turns_succ hagain]

theorem Bounded.timeout (h : Bounded setTimeout b opts answers) : ∃ header, setTimeout opts.timeout = some header := by
  obtain ⟨n, -, -, -, hend⟩ := h
  obtain ⟨m, -, s, -, hlast⟩ := Loops.exists_last hend
  exact (attemptOnce_returned hlast).1

theorem Bounded.delays (h : Bounded setTimeout b opts answers) : DelaysHold opts answers := by
  obtain ⟨header, hheader⟩ := h.timeout
  obtain ⟨n, hn, hr, hlast, hend⟩ := h
  intro m hm hrm
  induction m using Nat.strong_induction_on with
  | _ m ih =>
    cases m with
    | zero => exact ⟨_, rfl⟩
    | succ m =>
      by_contra hnone
      obtain ⟨s, hagain, ⟨hattempt, hdelay, hanswered⟩, -⟩ := attempts_retried (b := b) (n := m) hheader
        (ih m (by omega) (by omega) fun j hj => hrm j (by omega)) (by omega) fun i hi => hrm i (by omega)
      have hlt := opts.retries.toNat_lt
      have hnext : b.succ s.attempt = some (UInt32.ofNat (m + 1)) := by
        rw [hattempt]
        exact Build.succ_ofNat fun _ => by omega
      have hle : UInt32.ofNat (m + 1) ≤ opts.retries := (CallOptions.limits_succ (.inr (by omega))).1 (.inr hm)
      have hpanic := attemptOnce_backoff_none hnext hheader (hanswered ▸ hrm m (by omega)) hle
        (by simpa [delayAfter, hdelay, ← Option.ne_none_iff_exists'] using hnone)
      have hstop : attempts setTimeout b opts answers (m + 1) = .stop (.panicked (s.answered + 1)) := by
        rw [attempts, Loops.turns_succ hagain, hpanic]
      exact absurd (Loops.stop_unique hstop hend) (by simp)

/-- No limit is above the largest: at that count only the answer can be the last. -/
theorem Bounded.counter (h : Bounded setTimeout b opts answers) : CounterHolds b opts answers := by
  obtain ⟨header, hheader⟩ := h.timeout
  have hdelays := h.delays
  obtain ⟨n, hn, hr, hlast, hend⟩ := h
  intro hmax
  by_cases hall : ∃ i < n, ¬ Retryable (answers i)
  · obtain ⟨i, hi, hri⟩ := hall
    exact absurd (hr i hi) hri
  · obtain ⟨s, hagain, ⟨-, -, rfl⟩, hattempt⟩ := attempts_retried (b := b) hheader (hdelays _ hn hr) hn hr
    obtain ⟨-, ⟨next, hnext, hover⟩, -⟩ := attemptOnce_returned (Bounded.attemptOnce hend hagain)
    refine ⟨s.answered, hattempt ▸ Build.succ_isSome.1 ⟨next, hnext⟩, fun hri => ?_⟩
    have hlt := hover hri
    rw [hmax] at hlt
    exact absurd hlt (UInt32.not_lt.2 (UInt32.le_iff_toNat_le.2 (Nat.le_of_lt_succ next.toNat_lt)))

omit [SerdeJson] in
/-- Up to the last answer the counter holds, and at `u32::MAX` that answer is not to be tried again. -/
theorem CounterHolds.last {n : Nat} (h : CounterHolds b opts answers) (hn : n ≤ opts.retries.toNat)
    (hr : ∀ i < n, Retryable (answers i)) :
    n < b.countable ∧ (n = 2 ^ 32 - 1 → ¬ Retryable (answers n)) := by
  have hcountable := b.le_countable
  by_cases hmax : n = 2 ^ 32 - 1
  · have hlt := opts.retries.toNat_lt
    obtain ⟨i, hi, hri⟩ := h (UInt32.toNat_inj.1 (show opts.retries.toNat = 4294967295 by omega))
    have hni : n ≤ i := by
      by_contra hlt
      exact hri (hr i (by omega))
    have hle := b.countable_le
    obtain rfl : i = n := by omega
    exact ⟨hi, fun _ => hri⟩
  · have hlt := opts.retries.toNat_lt
    exact ⟨by omega, fun he => absurd he hmax⟩

theorem bounded_of (htimeout : setTimeout opts.timeout = some header) (hcounter : CounterHolds b opts answers)
    (hdelays : DelaysHold opts answers) : Bounded setTimeout b opts answers := by
  classical
  -- the first answer that is not to be tried again, or else the last attempt that is allowed
  have hex : ∃ n, ¬ Retryable (answers n) ∨ n = opts.retries.toNat := ⟨_, .inr rfl⟩
  have hn : Nat.find hex ≤ opts.retries.toNat := Nat.find_min' hex (.inr rfl)
  have hr : ∀ i < Nat.find hex, Retryable (answers i) := by
    intro i hi
    have hmin := Nat.find_min hex hi
    rw [not_or, not_not] at hmin
    exact hmin.1
  have hlast := Nat.find_spec hex
  generalize Nat.find hex = n at hn hr hlast
  obtain ⟨s, hagain, ⟨-, -, rfl⟩, hattempt⟩ := attempts_retried (b := b) htimeout (hdelays _ hn hr) hn hr
  obtain ⟨hlt, hmax⟩ := hcounter.last hn hr
  obtain ⟨next, hnext⟩ := Build.succ_isSome.2 (hattempt.symm ▸ hlt)
  refine ⟨s.answered, hn, hr, hlast, ?_⟩
  rw [attempts, Loops.turns_succ hagain, attemptOnce_last hnext htimeout]
  by_cases htop : s.attempt = 0xFFFFFFFF
  · exact .inl (hmax (by rw [← hattempt, htop]; rfl))
  · refine hlast.imp_right fun he => ?_
    obtain rfl : s.attempt + 1 = next := by simpa [b.succ_of_ne htop] using hnext
    rw [UInt32.lt_iff_toNat_lt, UInt32.toNat_succ htop]
    omega

/-- **The loop is bounded by `retries + 1` attempts if and only if the counter can count them, the timeout
has a header and the delays are durations.** -/
theorem bounded_iff : Bounded setTimeout b opts answers ↔
    (∃ header, setTimeout opts.timeout = some header) ∧ CounterHolds b opts answers ∧ DelaysHold opts answers := by
  constructor
  · intro h
    exact ⟨h.timeout, h.counter, h.delays⟩
  · rintro ⟨⟨header, htimeout⟩, hcounter, hdelays⟩
    exact bounded_of htimeout hcounter hdelays

/-! ### When a value is returned -/

/-- The attempt after so many retries can be made: the limit lets them, the counter counts it, and the delays are
durations. -/
structure TimedCallOptions.Allows (opts : TimedCallOptions) (b : Build) (n : Nat) : Prop where
  limits : opts.Limits n
  counted : b = .debug → n < 2 ^ 32 - 1
  delayed : ∃ d, delayAfter opts.backoffFactor n = some d

/-- A loop that has gone on so far was allowed to, and was not answered anything else. -/
theorem attempts_again {n : Nat} (h : attempts setTimeout b opts answers n = .again s) :
    Retried opts.backoffFactor n s ∧ opts.Limits n ∧ (b = .debug → n ≤ 2 ^ 32 - 1) ∧ ∀ i < n, Retryable (answers i) := by
  induction n generalizing s with
  | zero =>
    cases h
    exact ⟨retried_start _, .inr (Nat.zero_le _), fun _ => Nat.zero_le _, fun i hi => absurd hi (Nat.not_lt_zero i)⟩
  | succ n ih =>
    obtain ⟨t, hbefore, hturn⟩ := Loops.exists_before h
    obtain ⟨⟨hattempt, hdelay, rfl⟩, hlimits, hcount, hr⟩ := ih hbefore
    obtain ⟨next, d, hnext, hrt, hle, hd, rfl⟩ := attemptOnce_again hturn
    rw [hattempt] at hnext
    have hcounted := Build.counted_of_succ hcount hnext
    rw [Build.succ_ofNat hcounted] at hnext
    cases hnext
    refine ⟨⟨rfl, ?_, rfl⟩, (CallOptions.limits_succ hlimits).2 hle, hcounted, fun i hi => ?_⟩
    · rw [delayAfter, hdelay]
      exact hd
    · rcases Nat.lt_succ_iff_lt_or_eq.1 hi with hi | rfl
      · exact hr i hi
      · exact hrt

/-- **The call returns a value if and only if the timeout has a header and, after as many attempts that may be made
again as the options allow, one is answered with it.** -/
theorem attempts_returns_iff {k : Nat} {v : Json} :
    (∃ n, attempts setTimeout b opts answers n = .stop (.returned (k + 1) (.ok v))) ↔
      (∃ header, setTimeout opts.timeout = some header) ∧ opts.Allows b k ∧ (∀ i < k, Retryable (answers i)) ∧
        outcomeOf (answers k) = .ok v := by
  constructor
  · rintro ⟨n, hend⟩
    obtain ⟨m, -, s, hagain, hlast⟩ := Loops.exists_last hend
    obtain ⟨⟨hattempt, hdelay, rfl⟩, hlimits, hcount, hr⟩ := attempts_again hagain
    obtain ⟨hheader, ⟨next, hnext, -⟩, hk, hv⟩ := attemptOnce_returned hlast
    obtain rfl : k = s.answered := Nat.succ.inj hk
    rw [hattempt] at hnext
    exact ⟨hheader, ⟨hlimits, Build.counted_of_succ hcount hnext, _, hdelay⟩, hr, hv.symm⟩
  · rintro ⟨⟨header, hheader⟩, hallows, hr, hv⟩
    obtain ⟨s, hagain, hattempt, -, rfl⟩ := attempts_allowed hheader hallows.limits
      (fun hb => Nat.le_of_lt (hallows.counted hb)) hallows.delayed hr
    refine ⟨s.answered + 1, ?_⟩
    have hnext : b.succ s.attempt = some (UInt32.ofNat (s.answered + 1)) := by
      rw [hattempt]
      exact Build.succ_ofNat hallows.counted
    have hlast : ¬ Retryable (answers s.answered) := by
      intro hagain
      cases ha : answers s.answered with
      | ok body => simp [ha, Retryable] at hagain
      | error status => simp [ha, outcomeOf] at hv
    rw [attempts, Loops.turns_succ hagain, attemptOnce_last hnext hheader (.inl hlast), hv]

end

/-! ## Asking a gateway -/

namespace GatewayClient

section
variable [SerdeJson] {σ : Type} (setTimeout : Duration → Option String) (b : Build) (opts : TimedCallOptions)
  (inner : CallRequest → Prog σ Status CallResponse) (req : CallRequest)

/-- One turn of `loop`, where the gateway is asked. -/
def turn (s : Attempts) : Prog σ Empty (Loops.Turn Attempts CallEnd) :=
  match b.succ s.attempt with
  | none => return .stop (.panicked s.answered)
  | some attempt =>
    match setTimeout opts.timeout with
    | none => return .stop (.panicked s.answered)
    | some _ => do
      match ← (inner req).outcome with
      | .ok body => return .stop (.returned (s.answered + 1) (readBody body))
      | .error status =>
        if attempt ≤ opts.retries ∧ isRetryable status.code = true then
          match s.delay.backoff opts.backoffFactor with
          | none => return .stop (.panicked (s.answered + 1))
          | some delay => return .again ⟨attempt, delay, s.answered + 1⟩
        else return .stop (.returned (s.answered + 1) (.error (.status status)))

/-- `call`, as far as its first `n` turns. -/
def callFor (n : Nat) : Prog σ Empty (Loops.Turn Attempts CallEnd) :=
  Prog.turns (turn setTimeout b opts inner req) n .start

/-- Where the gateway is when it has answered `n` times. -/
def stateAfter (w : σ) (n : Nat) : σ := (fun w => ((inner req).exec w).2)^[n] w

/-- What it answers, asked once after the other. -/
def answersFrom (w : σ) (n : Nat) : Except Status CallResponse := ((inner req).exec (stateAfter inner req w n)).1

variable {setTimeout b opts inner req} {w w' w₁ : σ} {k : Nat}

omit [SerdeJson] in
theorem exec_stateAfter (w : σ) (n : Nat) :
    (inner req).exec (stateAfter inner req w n) = (answersFrom inner req w n, stateAfter inner req w (n + 1)) := by
  rw [stateAfter, stateAfter, Function.iterate_succ_apply', answersFrom, stateAfter]

omit [SerdeJson] in
theorem stateAfter_succ (w : σ) (n : Nat) :
    stateAfter inner req w (n + 1) = stateAfter inner req ((inner req).exec w).2 n :=
  Function.iterate_succ_apply _ _ _

omit [SerdeJson] in
theorem answersFrom_succ (w : σ) (n : Nat) :
    answersFrom inner req w (n + 1) = answersFrom inner req ((inner req).exec w).2 n := by
  rw [answersFrom, stateAfter_succ, answersFrom]

/-- How often the gateway has answered by then. -/
def answered : Loops.Turn Attempts CallEnd → Nat
  | .again s => s.answered
  | .stop (.returned n _) => n
  | .stop (.panicked n) => n

theorem exec_turn (w : σ) (s : Attempts) : (turn setTimeout b opts inner req s).exec (stateAfter inner req w s.answered) =
    (.ok (attemptOnce setTimeout b opts (answersFrom inner req w) s),
      stateAfter inner req w (answered (attemptOnce setTimeout b opts (answersFrom inner req w) s))) := by
  unfold turn attemptOnce
  cases b.succ s.attempt with
  | none => rfl
  | some attempt =>
    cases setTimeout opts.timeout with
    | none => rfl
    | some header =>
      have hask : ((inner req).outcome : Prog σ Empty _).exec (stateAfter inner req w s.answered) =
          (.ok (answersFrom inner req w s.answered), stateAfter inner req w (s.answered + 1)) := by
        rw [Prog.exec_outcome, exec_stateAfter]
      simp only [Prog.bind_eq, Prog.exec_bind_of_ok hask]
      cases answersFrom inner req w s.answered with
      | ok body => rfl
      | error status =>
        by_cases hagain : attempt ≤ opts.retries ∧ isRetryable status.code = true
        · simp only [if_pos hagain]
          cases s.delay.backoff opts.backoffFactor with
          | none => rfl
          | some delay => rfl
        · simp only [if_neg hagain]
          rfl

/-- **What the loop comes to is settled by the answers.** -/
theorem exec_callFor (w : σ) (n : Nat) : (callFor setTimeout b opts inner req n).exec w =
    (.ok (attempts setTimeout b opts (answersFrom inner req w) n),
      stateAfter inner req w (answered (attempts setTimeout b opts (answersFrom inner req w) n))) :=
  Prog.exec_turns (fun t => stateAfter inner req w (answered t)) (exec_turn w) .start n

omit [SerdeJson] in
theorem failsOver_iff : Prog.FailsOver (fun status => isRetryable status.code) (inner req) k w w₁ ↔
    w₁ = stateAfter inner req w k ∧ ∀ i < k, Retryable (answersFrom inner req w i) := by
  induction k generalizing w with
  | zero =>
    constructor
    · rintro ⟨⟩
      exact ⟨rfl, fun i hi => absurd hi (Nat.not_lt_zero i)⟩
    · rintro ⟨rfl, -⟩
      exact .none _
  | succ k ih =>
    constructor
    · rintro (_ | ⟨fails, tried, rest⟩)
      obtain ⟨rfl, hr⟩ := ih.1 rest
      have hw := congrArg Prod.snd fails
      refine ⟨?_, fun i hi => ?_⟩
      · rw [stateAfter_succ, hw]
      · cases i with
        | zero =>
          rw [answersFrom, show stateAfter inner req w 0 = w from rfl, fails]
          exact tried
        | succ i =>
          rw [answersFrom_succ, hw]
          exact hr i (Nat.lt_of_succ_lt_succ hi)
    · rintro ⟨rfl, hr⟩
      have hfirst : Retryable ((inner req).exec w).1 := hr 0 (Nat.succ_pos k)
      rcases hrun : (inner req).exec w with ⟨r, w₂⟩
      rw [hrun] at hfirst
      cases r with
      | ok body => exact hfirst.elim
      | error status =>
        refine .more hrun hfirst (ih.2 ⟨?_, fun i hi => ?_⟩)
        · rw [stateAfter_succ, hrun]
        · have hnext := hr (i + 1) (Nat.succ_lt_succ hi)
          rwa [answersFrom_succ, hrun] at hnext

/-- **A call returns a value if and only if the timeout has a header and the gateway, after as many failures that are
tried again as the options allow, answers with it.** -/
theorem callFor_returns_iff {v : Json} :
    (∃ n m, (callFor setTimeout b opts inner req n).exec w = (.ok (.stop (.returned m (.ok v))), w')) ↔
      (∃ header, setTimeout opts.timeout = some header) ∧ ∃ k w₁ body, opts.Allows b k ∧
        Prog.FailsOver (fun status => isRetryable status.code) (inner req) k w w₁ ∧
        (inner req).exec w₁ = (.ok body, w') ∧ readBody body = .ok v := by
  constructor
  · rintro ⟨n, m, hrun⟩
    rw [exec_callFor] at hrun
    have hend := Except.ok.inj (congrArg Prod.fst hrun)
    have hw := congrArg Prod.snd hrun
    obtain ⟨_, -, s, -, hlast⟩ := Loops.exists_last hend
    obtain ⟨-, -, rfl, -⟩ := attemptOnce_returned hlast
    obtain ⟨hheader, hallows, hr, hv⟩ := attempts_returns_iff.1 ⟨n, hend⟩
    simp only [hend, answered] at hw
    cases ha : answersFrom inner req w s.answered with
    | error status => simp [ha, outcomeOf] at hv
    | ok body =>
      refine ⟨hheader, s.answered, _, body, hallows, failsOver_iff.2 ⟨rfl, hr⟩, ?_, by rwa [ha] at hv⟩
      rw [exec_stateAfter, ha, hw]
  · rintro ⟨hheader, k, _, body, hallows, hfails, hanswer, hv⟩
    obtain ⟨rfl, hr⟩ := failsOver_iff.1 hfails
    rw [exec_stateAfter] at hanswer
    obtain ⟨ha, rfl⟩ := Prod.mk.inj hanswer
    have hout : outcomeOf (answersFrom inner req w k) = .ok v := by rw [ha]; exact hv
    obtain ⟨n, hend⟩ := attempts_returns_iff.2 ⟨hheader, hallows, hr, hout⟩
    refine ⟨n, k + 1, ?_⟩
    rw [exec_callFor, hend]
    rfl

/-! ### The loop that counts down -/

theorem exec_send_from : ∀ {n retries : Nat} {w : σ}, n ≤ retries → (∀ i < n, Retryable (answersFrom inner req w i)) →
    (¬ Retryable (answersFrom inner req w n) ∨ n = retries) →
    (send inner req retries).exec w = (outcomeOf (answersFrom inner req w n), stateAfter inner req w (n + 1))
  | 0, retries, w, _, _, hlast => by
    have hask : (inner req).exec w = (answersFrom inner req w 0, stateAfter inner req w 1) := exec_stateAfter w 0
    rw [send, Prog.bind_eq, Prog.exec_bind_of_ok (Prog.exec_outcome _ w), hask]
    cases ha : answersFrom inner req w 0 with
    | ok body =>
      simp only [outcomeOf, readBody]
      split
      · rfl
      · split <;> simp_all
    | error status =>
      cases retries with
      | zero => rfl
      | succ retries =>
        rcases hlast with h | h
        · rw [ha] at h
          simp [outcomeOf, show ¬ isRetryable status.code = true from h]
        · cases h
  | n + 1, 0, w, hn, _, _ => by omega
  | n + 1, retries + 1, w, hn, hr, hlast => by
    have ih := exec_send_from (w := ((inner req).exec w).2) (show n ≤ retries by omega)
      (fun i hi => answersFrom_succ w i ▸ hr (i + 1) (by omega))
      (by simpa only [answersFrom_succ, Nat.add_right_cancel_iff] using hlast)
    have hfirst : Retryable ((inner req).exec w).1 := hr 0 (Nat.succ_pos n)
    rw [answersFrom_succ, stateAfter_succ, ← ih, send, Prog.bind_eq, Prog.exec_bind_of_ok (Prog.exec_outcome _ w)]
    cases ha : ((inner req).exec w).1 with
    | ok body =>
      rw [ha] at hfirst
      exact hfirst.elim
    | error status =>
      rw [ha] at hfirst
      simp only [show isRetryable status.code = true from hfirst, if_true]

/-- **Where it is bounded, the loop does what `send` does.** -/
theorem exec_send (h : Bounded setTimeout b opts (answersFrom inner req w)) :
    ∃ n r w', (callFor setTimeout b opts inner req (n + 1)).exec w = (.ok (.stop (.returned (n + 1) r)), w') ∧
      (send inner req opts.retries.toNat).exec w = (r, w') := by
  obtain ⟨n, hn, hr, hlast, hend⟩ := h
  refine ⟨n, _, _, ?_, exec_send_from hn hr hlast⟩
  rw [exec_callFor, hend]
  rfl

end

end GatewayClient

/-! ## A limit that the counter never passes -/

namespace DemoLoop

/-- As many retries as a `u32` can hold, 200 ms apart. -/
def opts : TimedCallOptions := { retries := 0xFFFFFFFF, backoffFactor := .fin 1 }

/-- The gateway cannot be reached. -/
def answers (_ : Nat) : Except Status CallResponse := .error ⟨.unavailable, "connection refused"⟩

def setTimeout (_ : Duration) : Option String := some "30000000u"

theorem not_counterHolds (b : Build) : ¬ CounterHolds b opts answers := by
  intro h
  obtain ⟨i, -, hi⟩ := h rfl
  exact hi rfl

/-- In a release build every turn leads to the next. -/
theorem attempts_again [SerdeJson] (n : Nat) :
    ∃ s, attempts setTimeout .release opts answers n = .again s ∧ s.delay = .fromMillis 200 := by
  refine Loops.turns_inv (I := fun _ (s : Attempts) => s.delay = .fromMillis 200) rfl n fun i _ s hs => ?_
  have hle : s.attempt + 1 ≤ opts.retries := UInt32.le_iff_toNat_le.2 (Nat.le_of_lt_succ (s.attempt + 1).toNat_lt)
  exact ⟨_, attemptOnce_retry rfl (show DemoLoop.setTimeout _ = some "30000000u" from rfl) rfl hle (hs ▸ Duration.backoff_one), rfl⟩

end DemoLoop

/-- **Against a gateway that stays unavailable, `retries = u32::MAX` is no bound: a release build tries
forever, a debug build panics.** -/
theorem retries_without_end : letI := SerdeJson.nullOnly
    (∀ b, ¬ Bounded DemoLoop.setTimeout b DemoLoop.opts DemoLoop.answers) ∧
      ∀ n, ∃ s, attempts DemoLoop.setTimeout .release DemoLoop.opts DemoLoop.answers n = .again s := by
  let := SerdeJson.nullOnly
  refine ⟨fun b h => DemoLoop.not_counterHolds b h.counter, fun n => ?_⟩
  obtain ⟨s, hs, -⟩ := DemoLoop.attempts_again n
  exact ⟨s, hs⟩

end A2AGateway
