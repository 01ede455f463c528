import Delivery.Proofs.Deadlines
import Delivery.Proofs.Rounding
import Delivery.Proofs.WiringOrder

/-!
# What becomes of an accepted timeout

A configuration is judged by the seconds that it gives for one call, and a service works with these
rounded to whole nanoseconds. No accepted timeout is lost, and none is longer than a day; but half a
nanosecond and less is accepted as positive and rounded to nothing, and a service with no time for
its calls makes none.

* `Config.validate_eq_ok_iff` — what is accepted;
* `Config.callTimeout_withCallTimeout`, `Config.validate_withCallTimeout` — timeouts that are set as
  durations are kept as they are, and accepted unless there is nothing of them or too much;
* `Config.accepted_timeout_usable_iff` — what becomes of all that is accepted.
-/

namespace Delivery

namespace Config

variable {c : Config} {s : Double} {v : ℚ}

/-! ## What is accepted -/

theorem timeoutFlaw?_eq_none_iff :
    timeoutFlaw? s = none ↔ ∃ v, s.value? = some v ∧ 0 < v ∧ v ≤ longestTimeout := by
  cases s with
  | nan => simp [timeoutFlaw?, Double.value?, Double.ratio?]
  | infinite negative => simp [timeoutFlaw?, Double.value?, Double.ratio?]
  | finite negative units =>
      cases negative with
      | true =>
          refine iff_of_false (by simp [timeoutFlaw?]) ?_
          rintro ⟨v, hv, hpos, -⟩
          obtain ⟨_, _, hs, hzero, rfl⟩ := Double.finite_of_value hv hpos.le
          cases hs
          exact Double.ofUnits_pos.1 hpos (hzero rfl)
      | false =>
          simp only [Double.value?_finite, Option.some.injEq, exists_eq_left', Double.ofUnits_pos,
            Double.ofUnits_le]
          simp only [timeoutFlaw?, Bool.false_or, decide_eq_true_eq]
          split_ifs with hzero hlong
          · simp [hzero]
          · simp [Nat.not_le.2 hlong]
          · simp [hzero, Nat.le_of_not_lt hlong]

theorem validate_eq_ok : c.validate = .ok () ↔
    0 < c.maxConcurrentWrites ∧ ∀ s ∈ c.callTimeoutSeconds, timeoutFlaw? s = none := by
  have hflaw : c.validate = .ok () ↔ c.flaw? = none := by
    unfold validate
    cases c.flaw? <;> simp
  rw [hflaw, flaw?, Nat.pos_iff_ne_zero]
  by_cases hwrites : c.maxConcurrentWrites = 0
  · simp [hwrites]
  · rw [if_neg hwrites, Option.bind_eq_none_iff]
    simp [hwrites]

/-- **What a configuration is accepted for.** There is room for a write, and the seconds of a
timeout are a number above zero and up to a day. -/
theorem validate_eq_ok_iff : c.validate = .ok () ↔ 0 < c.maxConcurrentWrites ∧
    ∀ s ∈ c.callTimeoutSeconds, ∃ v, s.value? = some v ∧ 0 < v ∧ v ≤ longestTimeout := by
  simp only [validate_eq_ok, timeoutFlaw?_eq_none_iff]

/-! ## What it is rounded to -/

/-- Seconds are rounded to the nearest nanosecond. -/
theorem duration?_of_value (hv : s.value? = some v) (hpos : 0 ≤ v)
    (hle : v ≤ (endlessSeconds - 1 : ℕ)) :
    ∃ d : Duration, duration? s = some d ∧ Double.Nearest d (v * Duration.second) := by
  obtain ⟨negative, units, rfl, hsign, rfl⟩ := Double.finite_of_value hv hpos
  have hnear := Double.nearest_roundHalfEven (units * Duration.second)
    (Nat.cast_pos.1 Double.unitsPerOne_pos)
  have hscale : ((units * Duration.second : ℕ) : ℚ) / Double.unitsPerOne =
      Double.ofUnits units * Duration.second := by
    rw [Nat.cast_mul, mul_div_right_comm, Double.ofUnits]
  rw [hscale] at hnear
  have hfits : Double.roundHalfEven (units * Duration.second) Double.unitsPerOne <
      endlessSeconds * Duration.second := by
    refine Nat.lt_of_le_of_lt (m := (endlessSeconds - 1) * Duration.second) (hnear.le ?_) (by decide)
    rw [Nat.cast_mul]
    exact mul_le_mul_of_nonneg_right hle (Nat.cast_nonneg _)
  refine ⟨_, ?_, hnear⟩
  have hpositive : (negative && units ≠ 0) = false := by
    cases negative with
    | false => rfl
    | true =>
        rw [hsign rfl]
        rfl
  rw [duration?, hpositive, if_neg Bool.false_ne_true, if_pos hfits]

/-! ## Timeouts that are set as durations -/

theorem cast_second : ((Duration.second : ℕ) : ℚ) = 10 ^ 9 := by norm_num [Duration.second]

/-- The whole seconds, the rest in nanoseconds, the rest in seconds and the sum are rounded one
after another, and all of this takes away or adds very little. -/
theorem sum_of_parts_close {whole rest : ℕ} (hwhole : (whole : ℚ) < 2 ^ 64)
    (hrest : (rest : ℚ) < 10 ^ 9) :
    ∃ units, Double.addMagnitudes (.ofNat whole)
        (Double.divMagnitudes (.ofNat rest) (.ofNat Duration.second)) = .finite false units ∧
      |Double.ofUnits units - ((whole : ℚ) + rest / 10 ^ 9)| ≤
        (1 + ((whole : ℚ) + rest / 10 ^ 9)) / 2 ^ 49 := by
  have hwhole0 : (0 : ℚ) ≤ whole := Nat.cast_nonneg _
  have hrest0 : (0 : ℚ) ≤ rest := Nat.cast_nonneg _
  have hsecond : Double.ofNat Duration.second =
      .finite false (Duration.second * Double.unitsPerOne) := by decide +kernel
  have hscale : Double.ofUnits (Duration.second * Double.unitsPerOne) = 10 ^ 9 := by
    rw [Double.ofUnits_mul_unitsPerOne, cast_second]
  have hne : Duration.second * Double.unitsPerOne ≠ 0 :=
    Double.ofUnits_pos.1 (by rw [hscale]; norm_num)
  obtain ⟨a, ha, haclose⟩ := Double.ofNat_close (n := whole) (by linarith)
  obtain ⟨b, hb, hbclose⟩ := Double.ofNat_close (n := rest) (by linarith)
  rw [abs_le] at haclose hbclose
  obtain ⟨e, he, heclose⟩ := Double.divMagnitudes_close (a := b) hne (by rw [hscale]; linarith)
  rw [hscale, abs_le] at heclose
  obtain ⟨units, hunits, hclose⟩ := Double.addMagnitudes_close (a := a) (b := e) (by linarith)
  rw [abs_le] at hclose
  refine ⟨units, by rw [ha, hb, hsecond, he, hunits], abs_le.2 ?_⟩
  constructor <;> linarith

/-- The seconds of a duration are very near to it. -/
theorem seconds_close {d : Duration} (hd : d < endlessSeconds * Duration.second) :
    ∃ v, (seconds d).value? = some v ∧ 0 ≤ v ∧
      |v - (d : ℚ) / 10 ^ 9| ≤ (1 + (d : ℚ) / 10 ^ 9) / 2 ^ 49 := by
  have hwhole : d / Duration.second < 2 ^ 64 := (Nat.div_lt_iff_lt_mul (by decide)).2 hd
  have hrest : d % Duration.second < 10 ^ 9 := Nat.mod_lt _ (by decide)
  obtain ⟨units, hunits, hclose⟩ :=
    sum_of_parts_close (by exact_mod_cast hwhole) (by exact_mod_cast hrest)
  refine ⟨Double.ofUnits units, ?_, Double.ofUnits_nonneg units, ?_⟩
  · rw [seconds, hunits, Double.value?_finite]
  · rw [← cast_second, Double.div_eq_whole_add_rest d (by decide), cast_second]
    exact hclose

/-- **Timeouts that are set as durations are kept as they are**, as long as these are no longer than
a day. -/
theorem callTimeout_withCallTimeout (c : Config) {d : Duration}
    (hd : d ≤ longestTimeout * Duration.second) : (c.withCallTimeout d).callTimeout = some d := by
  obtain ⟨v, hv, hpos, hclose⟩ := seconds_close (Nat.lt_of_le_of_lt hd (by decide))
  have hday : (d : ℚ) ≤ 86400 * 10 ^ 9 := by exact_mod_cast hd
  have hfits : (86401 : ℚ) ≤ (endlessSeconds - 1 : ℕ) := by
    exact_mod_cast (by decide : 86401 ≤ endlessSeconds - 1)
  rw [abs_le] at hclose
  obtain ⟨timeout, htimeout, hnear⟩ := duration?_of_value hv hpos (by linarith)
  have heq : timeout = d := by
    refine hnear.eq_of_close (abs_lt.2 ?_)
    rw [cast_second]
    constructor <;> linarith
  rw [callTimeout, withCallTimeout, Option.bind_some, htimeout, heq]

theorem timeoutFlaw?_seconds {d : Duration} (hd : d < endlessSeconds * Duration.second) :
    timeoutFlaw? (seconds d) = none ↔ 0 < d ∧ d ≤ longestTimeout * Duration.second := by
  have hlongest : (longestTimeout : ℚ) = 86400 := by norm_num [longestTimeout]
  obtain ⟨v, hv, -, hclose⟩ := seconds_close hd
  rw [abs_le] at hclose
  rcases Nat.eq_zero_or_pos d with rfl | hpos
  · exact iff_of_false (by decide +kernel) (by simp)
  have hone : (1 : ℚ) ≤ d := by exact_mod_cast hpos
  -- Rounding crosses neither end: a nanosecond is much more than it takes away or adds.
  rcases Nat.lt_trichotomy d (longestTimeout * Duration.second) with hlt | rfl | hgt
  · have hnext : (d : ℚ) + 1 ≤ 86400 * 10 ^ 9 := by exact_mod_cast Nat.succ_le_of_lt hlt
    refine iff_of_true (timeoutFlaw?_eq_none_iff.2 ⟨v, hv, ?_, ?_⟩) ⟨hpos, hlt.le⟩
    · linarith
    · rw [hlongest]
      linarith
  · exact iff_of_true (by decide +kernel) ⟨hpos, le_rfl⟩
  · have hnext : (86400 * 10 ^ 9 : ℚ) + 1 ≤ d := by exact_mod_cast Nat.succ_le_of_lt hgt
    refine iff_of_false ?_ fun h => Nat.not_le_of_lt hgt h.2
    rw [timeoutFlaw?_eq_none_iff]
    rintro ⟨v', hv', -, hle⟩
    obtain rfl : v' = v := Option.some.inj (hv'.symm.trans hv)
    rw [hlongest] at hle
    linarith

/-- The durations that are accepted as timeouts. -/
theorem validate_withCallTimeout (c : Config) {d : Duration}
    (hd : d < endlessSeconds * Duration.second) : (c.withCallTimeout d).validate = .ok () ↔
      0 < c.maxConcurrentWrites ∧ 0 < d ∧ d ≤ longestTimeout * Duration.second := by
  rw [validate_eq_ok, ← timeoutFlaw?_seconds hd]
  simp [withCallTimeout]

end Config

namespace Service

variable {σ : Type} {service : Service σ} {context : Context} {timeout : Duration}

/-- Calls of a service may begin while the request is not over, and end by the timeout. -/
structure Grants (service : Service σ) (timeout : Duration) : Prop where
  begins : ∀ (context : Context) (w : World σ), context.check w.tokens w.now = .ok () →
    (service.callContext context w.now).check w.tokens w.now = .ok ()
  ends : ∀ (context : Context) (now : Instant), now + timeout < Context.endOfTime →
    ∃ d ∈ (service.callContext context now).deadline, d.at_ ≤ now + timeout

/-- No call of a service is ever made: its deadline has come when it would begin. -/
structure Refuses (service : Service σ) : Prop where
  calls : ∀ (context : Context) (w : World σ), context.check w.tokens w.now = .ok () →
    w.now < Context.endOfTime → ∀ r : Request,
      service.call context r w = (.error (.deadlineExceeded 0), w)
  writes : ∀ (context : Context) (w : World σ), context.check w.tokens w.now = .ok () →
    w.now < Context.endOfTime → ∀ p : Promotion,
      service.startWrite context p w = (.landed (.error (.deadlineExceeded 0)), w)

/-- A timeout that can be told is not lost. -/
theorem deadline_le_timeout (h : service.config.callTimeout = some timeout) {now : Instant}
    (hend : now + timeout < Context.endOfTime) :
    ∃ d ∈ (service.callContext context now).deadline, d.at_ ≤ now + timeout := by
  have hat : (⟨now, .timeout timeout⟩ : Tightening).instant? = some (now + timeout) := if_pos hend
  rw [callContext_of_some h, Tightening.apply_of_some hat]
  cases hd : context.deadline with
  | none =>
      rw [Context.tighten_of_none hd]
      exact ⟨_, rfl, Nat.le_refl _⟩
  | some d =>
      rcases Nat.lt_or_ge (now + timeout) d.at_ with hlt | hle
      · rw [Context.tighten_of_lt hd hlt]
        exact ⟨_, rfl, Nat.le_refl _⟩
      · rw [Context.tighten_of_le hd hle]
        exact ⟨d, hd, hle⟩

theorem grants_of_pos (h : service.config.callTimeout = some timeout) (hpos : 0 < timeout) :
    service.Grants timeout where
  begins context w hcheck := check_callContext hcheck (by simp [h, hpos.ne'])
  ends context now hend := deadline_le_timeout h hend

/-- With no time at all, the deadline of a call has come when the call is to begin. -/
theorem check_callContext_of_zero (h : service.config.callTimeout = some 0) {w : World σ}
    (hcheck : context.check w.tokens w.now = .ok ()) (hend : w.now < Context.endOfTime) :
    (service.callContext context w.now).check w.tokens w.now = .error (.deadlineExceeded 0) := by
  obtain ⟨hlive, hahead⟩ := Context.check_eq_ok.1 hcheck
  have hreports := reports_timeout h hend hahead
  exact hreports.check (by rw [service.callContext_token, hlive]) (deadline_le_timeout h hend)

theorem refuses_of_zero (h : service.config.callTimeout = some 0) : service.Refuses where
  calls context w hcheck hend r := call_of_ended (check_callContext_of_zero h hcheck hend) r
  writes context w hcheck hend p := by
    unfold startWrite World.start
    dsimp only
    rw [check_callContext_of_zero h hcheck hend]

end Service

/-! ## Accepted timeouts -/

namespace Config

variable {c : Config} {s : Double}

theorem exists_callTimeout (hc : c.validate = .ok ()) (hs : s ∈ c.callTimeoutSeconds) :
    ∃ (v : ℚ) (timeout : Duration), s.value? = some v ∧ 0 < v ∧ v ≤ longestTimeout ∧
      c.callTimeout = some timeout ∧ Double.Nearest timeout (v * Duration.second) := by
  obtain ⟨v, hv, hpos, hle⟩ := (validate_eq_ok_iff.1 hc).2 s hs
  have hfits : ((longestTimeout : ℕ) : ℚ) ≤ (endlessSeconds - 1 : ℕ) := by
    exact_mod_cast (by decide : longestTimeout ≤ endlessSeconds - 1)
  obtain ⟨timeout, htimeout, hnear⟩ := duration?_of_value hv hpos.le (hle.trans hfits)
  refine ⟨v, timeout, hv, hpos, hle, ?_, hnear⟩
  rw [callTimeout, hs, Option.bind_some, htimeout]

/-- **An accepted timeout is usable as soon as it is more than half a nanosecond.** No timeout that
is accepted is lost: it is rounded to the nearest nanosecond, and never to more than a day. A
service gives its calls that time if there is anything left of it. But up to half a nanosecond is
accepted as well, nothing is left of it, and the service makes no call at all. -/
theorem accepted_timeout_usable_iff (c : Config) (hc : c.validate = .ok ()) :
    (c.callTimeout = none ↔ c.callTimeoutSeconds = none) ∧
    ∀ s ∈ c.callTimeoutSeconds, ∃ (v : ℚ) (timeout : Duration),
      s.value? = some v ∧ 0 < v ∧ v ≤ longestTimeout ∧
      c.callTimeout = some timeout ∧ Double.Nearest timeout (v * Duration.second) ∧
      timeout ≤ longestTimeout * Duration.second ∧
      (0 < timeout ↔ 1 / 2 < v * Duration.second) ∧
      ∀ (σ : Type) (w : Wiring σ) (fresh : Nat → Promotion.Stamp) (service : Service σ),
        w.config = c → w.build fresh = .ok service →
        (1 / 2 < v * Duration.second → service.Grants timeout) ∧
        (v * Duration.second ≤ 1 / 2 → service.Refuses) := by
  refine ⟨⟨fun hnone => ?_, fun hnone => ?_⟩, fun s hs => ?_⟩
  · cases hs : c.callTimeoutSeconds with
    | none => rfl
    | some s =>
        obtain ⟨_, _, -, -, -, hsome, -⟩ := exists_callTimeout hc hs
        rw [hnone] at hsome
        cases hsome
  · rw [callTimeout, hnone, Option.bind_none]
  · obtain ⟨v, timeout, hv, hpos, hle, htimeout, hnear⟩ := exists_callTimeout hc hs
    have hday : v * Duration.second ≤ (longestTimeout * Duration.second : ℕ) := by
      rw [Nat.cast_mul]
      exact mul_le_mul_of_nonneg_right hle (Nat.cast_nonneg _)
    refine ⟨v, timeout, hv, hpos, hle, htimeout, hnear, hnear.le hday, hnear.pos_iff, ?_⟩
    rintro σ w fresh service rfl hbuild
    rw [← Wiring.config_of_build hbuild] at htimeout
    constructor
    · intro hmore
      exact Service.grants_of_pos htimeout (hnear.pos_iff.2 hmore)
    · intro hless
      have hzero : timeout = 0 := Nat.eq_zero_of_not_pos fun hpos =>
        absurd (hnear.pos_iff.1 hpos) (not_lt.2 hless)
      rw [hzero] at htimeout
      exact Service.refuses_of_zero htimeout

theorem accepted_timeout_usable_iff_nanosecond :
    let c : Config := { callTimeoutSeconds := some (Double.ofDecimal false 1 (-9)) }
    let w : Wiring Store := .ofSettings [.backend Store.backend, .config c]
    c.validate = .ok () ∧ c.callTimeout = some 1 ∧
      ∃ service, w.build (fun _ => ⟨.ofNat 1, default⟩) = .ok service ∧ service.Grants 1 := by
  intro c w
  have hvalid : c.validate = .ok () := by decide +kernel
  have htimeout : c.callTimeout = some 1 := by decide +kernel
  obtain ⟨-, husable⟩ := accepted_timeout_usable_iff c hvalid
  obtain ⟨v, timeout, -, -, -, hsome, -, -, hmore, hserved⟩ := husable _ rfl
  obtain rfl : timeout = 1 := Option.some.inj (hsome.symm.trans htimeout)
  have hbuild : w.build (fun _ => ⟨.ofNat 1, default⟩) = .ok _ :=
    Wiring.build_of_complete hvalid rfl rfl rfl rfl
  exact ⟨hvalid, htimeout, _, hbuild, (hserved Store w _ _ rfl hbuild).1 (hmore.1 Nat.one_pos)⟩

/-- A tenth of a nanosecond is accepted, and a promotion fails before its first call. -/
theorem timeout_rounded_away :
    let c : Config := { callTimeoutSeconds := some (Double.ofDecimal false 1 (-10)) }
    c.validate = .ok () ∧ c.callTimeout = some 0 ∧
      ((Wiring.ofSettings [.backend Store.backend, .config c]).build
        fun _ => ⟨.ofNat 1, default⟩).toOption.map (fun service =>
          ((promoteStage ⟨"proj", "qa", "abcdef0"⟩).run.run service ⟨0, none⟩
            { state := .empty }).1) = some (.error (.internal (.deadlineExceeded 0))) := by
  decide +kernel

end Config

end Delivery
