import BerzCoin.KeyedRows
import BerzCoin.SlidingWindow

/-! The rate limiter of the peers: one log of allowed calls for each key. -/
namespace BerzCoin
open SlidingWindow

/-- The clock is in seconds. -/
structure RateLimiter where
  maxMessages : ℤ := 100
  timeWindow : ℤ := 60
  messages : KeyedRows String (List ℚ) := KeyedRows.empty

namespace RateLimiter

structure Call where
  time : ℚ
  key : String
  deriving DecidableEq

structure Outcome extends Call where
  allowed : Bool
  deriving DecidableEq

section
variable (l : RateLimiter)

/-- `self.messages[key]`, with the default of the dictionary. -/
def log (key : String) : List ℚ := (l.messages.get? key).getD []

/-- `allow`: the answer and the limiter after it. -/
def allow (now : ℚ) (key : String) : Bool × RateLimiter :=
  let kept := (l.log key).filter fun t => now - t < l.timeWindow
  if l.maxMessages ≤ kept.length then (false, { l with messages := l.messages.put key kept })
  else (true, { l with messages := l.messages.put key (kept ++ [now]) })

/-- `get_count`. -/
def getCount (now : ℚ) (key : String) : ℕ :=
  ((l.log key).filter fun t => now - t < l.timeWindow).length

end

/-- One call after the other. -/
def outcomes : RateLimiter → List Call → List Outcome
  | _, [] => []
  | l, c :: cs => ⟨c, (l.allow c.time c.key).1⟩ :: outcomes (l.allow c.time c.key).2 cs

def after (l : RateLimiter) (calls : List Call) : RateLimiter :=
  calls.foldl (fun l c => (l.allow c.time c.key).2) l

/-- When calls of a key were allowed. -/
def allowedTimes (key : String) (past : List Outcome) : List ℚ :=
  (past.filter fun o => o.allowed && o.key = key).map (·.time)

/-- How many calls of a key were allowed at the given times. -/
def countAllowed (key : String) (inside : ℚ → Bool) (past : List Outcome) : ℕ :=
  past.countP fun o => o.allowed && o.key = key && inside o.time

variable {l : RateLimiter} {past : List Outcome} {last now : ℚ} {key : String}

lemma countAllowed_eq (key : String) (inside : ℚ → Bool) (past : List Outcome) :
    countAllowed key inside past = (allowedTimes key past).countP inside := by
  rw [countAllowed, allowedTimes, List.countP_map, List.countP_filter]
  apply List.countP_congr
  intro o _
  simp only [Function.comp_apply, Bool.and_eq_true]
  tauto

lemma allowedTimes_append (past past' : List Outcome) :
    allowedTimes key (past ++ past') = allowedTimes key past ++ allowedTimes key past' := by
  rw [allowedTimes, List.filter_append, List.map_append]
  rfl

lemma allowedTimes_singleton (c : Call) (allowed : Bool) :
    allowedTimes key [⟨c, allowed⟩] = if allowed = true ∧ c.key = key then [c.time] else [] := by
  by_cases h : allowed = true ∧ c.key = key
  · simp [allowedTimes, h]
  · simp only [allowedTimes, if_neg h]
    simpa using h

lemma allow_eq (l : RateLimiter) (now : ℚ) (key : String) : l.allow now key =
    let kept := recent (l.timeWindow : ℚ) now (l.log key)
    if l.maxMessages ≤ kept.length then (false, { l with messages := l.messages.put key kept })
    else (true, { l with messages := l.messages.put key (kept ++ [now]) }) := rfl

/-- What one call does to the log of each key, by its answer. -/
lemma allow_cases (l : RateLimiter) (now : ℚ) (key : String) :
    (∃ kept, (l.allow now key).2 = { l with messages := l.messages.put key kept } ∧
      (((l.allow now key).1 = false ∧ kept = recent (l.timeWindow : ℚ) now (l.log key) ∧
          l.maxMessages ≤ kept.length) ∨
        ((l.allow now key).1 = true ∧ kept = recent (l.timeWindow : ℚ) now (l.log key) ++ [now] ∧
          ((recent (l.timeWindow : ℚ) now (l.log key)).length : ℤ) < l.maxMessages))) := by
  rw [allow_eq]
  dsimp only
  split_ifs with hfull
  · exact ⟨_, rfl, .inl ⟨rfl, rfl, hfull⟩⟩
  · exact ⟨_, rfl, .inr ⟨rfl, rfl, not_le.1 hfull⟩⟩

/-- The limiter stands for its past, and the past has kept the limit. -/
structure Remembers (l : RateLimiter) (past : List Outcome) (last : ℚ) : Prop where
  tracks : ∀ key, Tracks (l.timeWindow : ℚ) last (l.log key) (allowedTimes key past)
  limit : ∀ key, WithinLimit l.maxMessages.toNat (l.timeWindow : ℚ) (allowedTimes key past)

lemma remembers_fresh (maxMessages timeWindow : ℤ) (last : ℚ) :
    Remembers { maxMessages, timeWindow } [] last :=
  ⟨fun _ => tracks_nil _ _, fun _ => withinLimit_nil _ _⟩

lemma Remembers.wait (h : Remembers l past last) (hle : last ≤ now) : Remembers l past now :=
  ⟨fun key => (h.tracks key).wait hle, h.limit⟩

/-- One call. -/
lemma Remembers.allow {c : Call} (h : Remembers l past c.time) :
    Remembers (l.allow c.time c.key).2 (past ++ [⟨c, (l.allow c.time c.key).1⟩]) c.time := by
  obtain ⟨kept, hafter, hcases⟩ := allow_cases l c.time c.key
  have hlog (key : String) : (l.allow c.time c.key).2.log key =
      if key = c.key then kept else l.log key := by
    rw [hafter, log, KeyedRows.get?_put]
    split_ifs <;> rfl
  have htimes (key : String) : allowedTimes key (past ++ [⟨c, (l.allow c.time c.key).1⟩]) =
      allowedTimes key past ++
        if (l.allow c.time c.key).1 = true ∧ c.key = key then [c.time] else [] := by
    rw [allowedTimes_append, allowedTimes_singleton]
  have hwindow : (l.allow c.time c.key).2.timeWindow = l.timeWindow := by rw [hafter]
  have hmax : (l.allow c.time c.key).2.maxMessages = l.maxMessages := by rw [hafter]
  constructor
  · intro key
    rw [hlog, htimes, hwindow]
    by_cases hkey : key = c.key
    · subst hkey
      obtain ⟨hanswer, hkept, -⟩ | ⟨hanswer, hkept, -⟩ := hcases
      · simpa [hanswer, hkept] using (h.tracks _).prune
      · simpa [hanswer, hkept] using (h.tracks _).prune.push
    · simpa [hkey, Ne.symm hkey] using h.tracks key
  · intro key
    rw [htimes, hwindow, hmax]
    split_ifs with hallowed
    · obtain ⟨hanswer, rfl⟩ := hallowed
      obtain ⟨hrefused, -⟩ | ⟨-, -, hlt⟩ := hcases
      · rw [hrefused] at hanswer
        cases hanswer
      · apply (h.limit c.key).push
        rw [← (h.tracks c.key).recent_eq _ le_rfl]
        omega
    · rw [List.append_nil]
      exact h.limit key

/-- A run of calls at times that do not go back. -/
lemma Remembers.run {calls : List Call} (h : Remembers l past last)
    (hclock : (calls.map (·.time)).Pairwise (· ≤ ·)) (hfirst : ∀ c ∈ calls, last ≤ c.time)
    (hlast : last ≤ now) (hnow : ∀ c ∈ calls, c.time ≤ now) :
    Remembers (l.after calls) (past ++ l.outcomes calls) now := by
  induction calls generalizing l past last with
  | nil =>
    rw [outcomes, List.append_nil]
    exact h.wait hlast
  | cons c cs ih =>
    rw [List.map_cons, List.pairwise_cons] at hclock
    have hstep := (h.wait (hfirst c List.mem_cons_self)).allow
    have hrest := ih hstep hclock.2 (fun d hd => hclock.1 _ (List.mem_map_of_mem hd))
      (hnow c List.mem_cons_self) (fun d hd => hnow d (List.mem_cons_of_mem c hd))
    rwa [List.append_assoc, List.singleton_append] at hrest

/-- The call behind an outcome, and the limiter that answered it. -/
lemma outcomes_split {calls : List Call} {earlier later : List Outcome} {o : Outcome}
    (h : l.outcomes calls = earlier ++ o :: later) :
    ∃ before c rest, calls = before ++ c :: rest ∧ l.outcomes before = earlier ∧
      o = ⟨c, ((l.after before).allow c.time c.key).1⟩ := by
  induction earlier generalizing l calls with
  | nil =>
    cases calls with
    | nil => cases h
    | cons c cs =>
      rw [outcomes, List.nil_append, List.cons.injEq] at h
      exact ⟨[], c, cs, rfl, rfl, h.1.symm⟩
  | cons first earlier ih =>
    cases calls with
    | nil => cases h
    | cons c cs =>
      rw [outcomes, List.cons_append, List.cons.injEq] at h
      obtain ⟨before, d, rest, rfl, hearlier, ho⟩ := ih h.2
      refine ⟨c :: before, d, rest, rfl, ?_, ho⟩
      rw [outcomes, h.1, hearlier]

/-- A refused call has found the limit reached by calls of its key in the window before it. -/
lemma Remembers.le_countAllowed {c : Call} (h : Remembers l past c.time)
    (hrefused : (l.allow c.time c.key).1 = false) :
    l.maxMessages ≤ countAllowed c.key
      (fun t => c.time - l.timeWindow < t && t ≤ c.time) past := by
  obtain ⟨kept, -, ⟨-, hkept, hfull⟩ | ⟨hallowed, -⟩⟩ := allow_cases l c.time c.key
  · rw [hkept, (h.tracks c.key).recent_eq _ le_rfl, recent, ← List.countP_eq_length_filter] at hfull
    refine hfull.trans ?_
    rw [countAllowed_eq, Nat.cast_le]
    apply List.countP_mono_left
    intro t ht hrecent
    have hle := (h.tracks c.key).le_last t ht
    simp only [decide_eq_true_eq] at hrecent
    simp only [Bool.and_eq_true, decide_eq_true_eq]
    exact ⟨by linarith, hle⟩
  · rw [hrefused] at hallowed
    cases hallowed

/-- `get_count` counts the allowed calls that are in the window. -/
lemma Remembers.getCount (h : Remembers l past last) (hle : last ≤ now) (key : String) :
    l.getCount now key = countAllowed key (fun t => now - t < l.timeWindow) past := by
  have hrecent := (h.tracks key).recent_eq now hle
  rw [RateLimiter.getCount, countAllowed_eq, List.countP_eq_length_filter]
  exact congrArg List.length hrecent

lemma after_settings (l : RateLimiter) (calls : List Call) :
    (l.after calls).maxMessages = l.maxMessages ∧ (l.after calls).timeWindow = l.timeWindow := by
  induction calls generalizing l with
  | nil => exact ⟨rfl, rfl⟩
  | cons c cs ih =>
    obtain ⟨kept, hafter, -⟩ := allow_cases l c.time c.key
    have hrest := ih (l.allow c.time c.key).2
    rw [hafter] at hrest
    rw [after, List.foldl_cons, hafter]
    exact hrest

/-- After any run from the start. -/
lemma remembers_after (maxMessages timeWindow : ℤ) (now : ℚ) {calls : List Call}
    (hclock : (calls.map (·.time)).Pairwise (· ≤ ·)) (hnow : ∀ c ∈ calls, c.time ≤ now) :
    Remembers (({ maxMessages, timeWindow } : RateLimiter).after calls)
      (({ maxMessages, timeWindow } : RateLimiter).outcomes calls) now := by
  cases calls with
  | nil => exact remembers_fresh maxMessages timeWindow now
  | cons c cs =>
    have hfirst : ∀ d ∈ c :: cs, c.time ≤ d.time := by
      rw [List.map_cons, List.pairwise_cons] at hclock
      intro d hd
      cases List.mem_cons.1 hd with
      | inl hd => rw [hd]
      | inr hd => exact hclock.1 _ (List.mem_map_of_mem hd)
    exact (remembers_fresh maxMessages timeWindow c.time).run hclock hfirst
      (hnow c List.mem_cons_self) hnow

/-- Over any run of calls at times that do not go back, whatever their keys: no window of the
length `timeWindow` holds more than `maxMessages` allowed calls of one key, and a call is refused
only after as many of its key in the window before it. -/
theorem allow_sliding_window (maxMessages timeWindow : ℤ) (calls : List Call)
    (hclock : (calls.map (·.time)).Pairwise (· ≤ ·)) :
    let limiter : RateLimiter := { maxMessages, timeWindow }
    (∀ key start, countAllowed key (fun t => start ≤ t && t < start + timeWindow)
      (limiter.outcomes calls) ≤ maxMessages.toNat) ∧
    (∀ key start, countAllowed key (fun t => start < t && t ≤ start + timeWindow)
      (limiter.outcomes calls) ≤ maxMessages.toNat) ∧
    ∀ earlier o later, limiter.outcomes calls = earlier ++ o :: later → o.allowed = false →
      maxMessages ≤
        countAllowed o.key (fun t => o.time - timeWindow < t && t ≤ o.time) earlier := by
  intro limiter
  have hlimit : ∀ key, WithinLimit maxMessages.toNat (timeWindow : ℚ)
      (allowedTimes key (limiter.outcomes calls)) := by
    obtain ⟨now, hnow⟩ := (calls.map (·.time)).toFinset.bddAbove
    have hremembers := remembers_after maxMessages timeWindow now hclock
      (fun c hc => hnow (by simpa using ⟨c, hc, rfl⟩))
    obtain ⟨hmax, hwindow⟩ := after_settings limiter calls
    have h := hremembers.limit
    rw [hmax, hwindow] at h
    exact h
  refine ⟨?_, ?_, ?_⟩
  · intro key start
    rw [countAllowed_eq]
    exact hlimit key _ (narrow_Ico _ _)
  · intro key start
    rw [countAllowed_eq]
    exact hlimit key _ (narrow_Ioc _ _)
  · intro earlier o later h hrefused
    obtain ⟨before, c, rest, rfl, rfl, rfl⟩ := outcomes_split h
    rw [List.map_append, List.map_cons, List.pairwise_append] at hclock
    have hremembers := remembers_after maxMessages timeWindow c.time hclock.1
      (fun d hd => hclock.2.2 _ (List.mem_map_of_mem hd) _ List.mem_cons_self)
    obtain ⟨hmax, hwindow⟩ := after_settings limiter before
    have hle := hremembers.le_countAllowed hrefused
    rw [hmax, hwindow] at hle
    exact hle

/-- With one message a minute, a call half a minute after the last one is refused. -/
theorem allow_sliding_window_minute :
    let limiter : RateLimiter := { maxMessages := 1, timeWindow := 60 }
    let calls : List Call := [⟨0, "version"⟩, ⟨30, "version"⟩, ⟨60, "version"⟩]
    (limiter.outcomes calls).map Outcome.allowed = [true, false, true] ∧
      countAllowed "version" (fun t => 0 ≤ t && t < 0 + (60 : ℤ)) (limiter.outcomes calls) ≤ 1 ∧
      (1 : ℤ) ≤ countAllowed "version" (fun t => 30 - (60 : ℤ) < t && t ≤ 30)
        [⟨⟨0, "version"⟩, true⟩] := by
  have hallowed : (({ maxMessages := 1, timeWindow := 60 } : RateLimiter).outcomes
      [⟨0, "version"⟩, ⟨30, "version"⟩, ⟨60, "version"⟩]) =
        [⟨⟨0, "version"⟩, true⟩, ⟨⟨30, "version"⟩, false⟩, ⟨⟨60, "version"⟩, true⟩] := by
    decide +kernel
  obtain ⟨hwindow, -, hrefused⟩ := allow_sliding_window 1 60
    [⟨0, "version"⟩, ⟨30, "version"⟩, ⟨60, "version"⟩] (by decide +kernel)
  refine ⟨by rw [hallowed]; rfl, hwindow "version" 0, ?_⟩
  exact hrefused [⟨⟨0, "version"⟩, true⟩] ⟨⟨30, "version"⟩, false⟩ _ hallowed rfl

end RateLimiter
end BerzCoin
