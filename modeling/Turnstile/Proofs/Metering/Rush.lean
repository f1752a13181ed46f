import Mathlib
import Turnstile.Proofs.Metering.Bounds

/-!
# Requests that all come at once

A `Rush` is a bucket to which any number of requests come at one moment. Nothing happens to it from
then on but the passes of its servicer, each at the time that the one before asked for.

The `Books` say what has been granted by a time, and when. A grant is one more entry
(`Books.grant`), time adds what flows in (`Books.later`), and a pass makes an entry for everybody it
fills (`Books.fills`). A grant that comes when it is due is late only by what it asks for together
with those before it, and early only by the slack of each of them.
-/

namespace Turnstile.Metering

open Bucket Quantity

deriving instance DecidableEq for Servicer

structure Award where
  /-- Its number, if it had to get in line. -/
  number : Option Nat
  amount : Rat
  time : Rat
deriving DecidableEq

/-- Requests that come to a bucket at one moment, and what becomes of them. -/
structure Rush where
  bucket : Bucket Rat Rat
  now : Rat
  coming : List Rat
  /-- What has been asked for, with the numbers of those who got in line. -/
  asked : List (Option Nat × Rat) := []
  granted : List Award := []

namespace Rush

def ask (s : Rush) : Rush :=
  match s.coming with
  | [] => s
  | amount :: coming =>
    match s.bucket.request amount s.now with
    | (.settled grant, bucket) =>
      { s with
        bucket, coming
        asked := s.asked ++ [(none, amount)]
        granted := s.granted ++ if grant.granted then [⟨none, grant.amount, s.now⟩] else [] }
    | (.queued id, bucket) =>
      { s with bucket, coming, asked := s.asked ++ [(some id, amount)] }

/-- The grants among the outcomes that a pass sends. -/
def awards (now : Rat) (ended : List (Resolution Rat Rat)) : List Award :=
  (ended.filter (·.grant.granted)).map fun r => ⟨some r.id, r.grant.amount, now⟩

def pass (s : Rush) (now : Rat) : Rush :=
  { s with
    bucket := (s.bucket.pass now).1
    now
    granted := s.granted ++ awards now (s.bucket.pass now).2 }

/-- What can happen next. The servicer may make passes before all requests are made. -/
inductive Step (s : Rush) : Rush → Prop where
  | ask (more : s.coming ≠ []) : Step s s.ask
  | pass (ready : s.bucket.servicer = .ready) : Step s (s.pass s.now)
  | wake (all : s.coming = []) {wake : Rat} (asleep : s.bucket.servicer = .asleep wake) :
      Step s (s.pass wake)

inductive Reaches (first : Rush) : Nat → Rush → Prop where
  | start : Reaches first 0 first
  | next {n : Nat} {s s' : Rush} (before : Reaches first n s) (step : Step s s') :
      Reaches first (n + 1) s'

structure Fillable (first : Rush) : Prop where
  sound : first.bucket.terms.Sound
  whole : first.bucket.terms.partialGrants = false
  unlimited : first.bucket.terms.maxWaiters = none
  amounts : ∀ amount ∈ first.coming, 0 ≤ amount ∧ amount ≤ first.bucket.terms.capacity

def total (granted : List Award) : Rat := (granted.map (·.amount)).sum

theorem total_append_singleton (granted : List Award) (a : Award) :
    total (granted ++ [a]) = total granted + a.amount := by
  simp [total]

/-- The units there were at first and those that have come since. -/
def supply (first : Rush) (now : Rat) : Rat :=
  first.bucket.volumeAt first.now + (now - first.now) * first.bucket.terms.rate

/-- Each grant came when there was enough for it and those before it, or earlier by no more than the
slack of each of them. -/
inductive OnTime (first : Rush) : List Award → Prop where
  | nil : OnTime first []
  | snoc {granted : List Award} {a : Award} (before : OnTime first granted)
      (after : first.now ≤ a.time)
      (soonest : total granted + a.amount ≤ first.supply a.time + (granted.length + 1) * slack)
      (latest : a.time = first.now ∨ first.supply a.time ≤ total granted + a.amount) :
      OnTime first (granted ++ [a])

/-- What has been granted by a time at which so much is left in the bucket. -/
structure Books (first : Rush) (granted : List Award) (now volume : Rat) : Prop where
  since : first.now ≤ now
  holds : first.bucket.terms.Holds volume
  least : first.supply now ≤ volume + total granted
  most : volume + total granted ≤ first.supply now + granted.length * slack
  onTime : OnTime first granted
  ordered : granted.Pairwise (·.time ≤ ·.time)
  past : ∀ a ∈ granted, a.time ≤ now

section

variable {first : Rush} {granted : List Award} {now volume : Rat}

theorem Books.grant (books : Books first granted now volume) {a : Award} (time : a.time = now)
    (nonneg : 0 ≤ a.amount) (covered : a.amount ≤ volume + slack)
    (due : now = first.now ∨ first.supply now ≤ total granted + a.amount) :
    Books first (granted ++ [a]) now (debited volume a.amount) := by
  have paid : debited volume a.amount = max (volume - a.amount) 0 := debited_eq _ _
  have least : volume - a.amount ≤ debited volume a.amount := paid ▸ le_max_left _ _
  have most : debited volume a.amount ≤ volume - a.amount + slack := by
    rw [paid]
    exact max_le (by linarith [slack_pos]) (by linarith)
  have sum := total_append_singleton granted a
  have count : ((granted ++ [a]).length : Rat) = granted.length + 1 := by simp
  have holds := books.holds.debited nonneg
  have owed : debited volume a.amount + total (granted ++ [a]) ≤
      first.supply now + (granted.length + 1) * slack := by
    have before := books.most
    rw [sum]
    linarith
  refine ⟨books.since, holds, ?_, ?_, .snoc books.onTime ?_ ?_ ?_, ?_, ?_⟩
  · have before := books.least
    rw [sum]
    linarith
  · rwa [count]
  · rw [time]
    exact books.since
  · rw [time, ← sum]
    linarith [holds.nonneg]
  · rwa [time]
  · apply List.pairwise_append.2
    refine ⟨books.ordered, List.pairwise_singleton _ _, fun earlier mem later last => ?_⟩
    rw [List.mem_singleton.1 last, time]
    exact books.past earlier mem
  · intro earlier mem
    rcases List.mem_append.1 mem with mem | last
    · exact books.past earlier mem
    · rw [List.mem_singleton.1 last, time]

theorem supply_later (first : Rush) (now later : Rat) :
    first.supply later = first.supply now + (later - now) * first.bucket.terms.rate := by
  unfold supply
  ring

/-- Time goes on, and what flows in fits. -/
theorem Books.later (books : Books first granted now volume) {later : Rat} (forth : now ≤ later)
    (rate : 0 ≤ first.bucket.terms.rate)
    (room : volume + (later - now) * first.bucket.terms.rate ≤ first.bucket.terms.capacity) :
    Books first granted later (volume + (later - now) * first.bucket.terms.rate) := by
  have inflow : 0 ≤ (later - now) * first.bucket.terms.rate :=
    mul_nonneg (sub_nonneg.2 forth) rate
  have supplied := supply_later first now later
  obtain ⟨since, holds, least, most, onTime, ordered, past⟩ := books
  refine ⟨since.trans forth, ⟨add_nonneg holds.nonneg inflow, room⟩, ?_, ?_, onTime, ordered,
    fun a mem => (past a mem).trans forth⟩
  · rw [supplied]
    linarith
  · rw [supplied]
    linarith

/-- When each grant came. -/
theorem OnTime.get (rate : 0 < first.bucket.terms.rate) (onTime : OnTime first granted) {k : Nat}
    {a : Award} (there : granted[k]? = some a) :
    let due := ((granted.map (·.amount)).take (k + 1)).sum - first.bucket.volumeAt first.now
    max 0 ((due - (k + 1) * slack) / first.bucket.terms.rate) ≤ a.time - first.now ∧
      a.time - first.now ≤ max 0 (due / first.bucket.terms.rate) := by
  induction onTime with
  | nil => cases there
  | @snoc granted last before after soonest latest ih =>
    rcases Nat.lt_trichotomy k granted.length with earlier | here | past
    · have short : k + 1 ≤ (granted.map (·.amount)).length := by
        rw [List.length_map]
        omega
      rw [List.getElem?_append_left earlier] at there
      rw [List.map_append, List.take_append_of_le_length short]
      exact ih there
    · subst here
      rw [List.getElem?_append_right le_rfl, Nat.sub_self] at there
      obtain rfl := Option.some.inj there
      have whole : ((granted ++ [last]).map (·.amount)).take (granted.length + 1) =
          (granted ++ [last]).map (·.amount) := by
        apply List.take_of_length_le
        simp
      intro due
      have sum : due = total granted + last.amount - first.bucket.volumeAt first.now := by
        rw [← total_append_singleton]
        exact congrArg (fun l => l.sum - first.bucket.volumeAt first.now) whole
      unfold supply at soonest latest
      constructor
      · apply max_le (sub_nonneg.2 after)
        rw [div_le_iff₀ rate, sum]
        linarith
      · rcases latest with atOnce | enough
        · rw [atOnce, sub_self]
          exact le_max_left _ _
        · apply le_max_of_le_right
          rw [le_div_iff₀ rate, sum]
          linarith
    · have none : (granted ++ [last])[k]? = none := by
        apply List.getElem?_eq_none
        rw [List.length_append, List.length_singleton]
        omega
      rw [none] at there
      cases there

end

/-- A volume fills these requests one after the other, and so much is left of it. -/
inductive Fills : Rat → List (Waiter Rat Rat) → Rat → Prop where
  | nil (volume : Rat) : Fills volume [] volume
  | cons {volume left : Rat} {w : Waiter Rat Rat} {rest : List (Waiter Rat Rat)}
      (covered : w.requested ≤ volume + slack)
      (fills : Fills (debited volume w.requested) rest left) :
      Fills volume (w :: rest) left

structure Pending (t : Terms Rat) (w : Waiter Rat Rat) : Prop where
  live : w.live = true
  untouched : w.granted = 0
  nonneg : 0 ≤ w.requested
  fits : w.requested ≤ t.capacity

def award (now : Rat) (w : Waiter Rat Rat) : Award := ⟨some w.id, w.requested, now⟩

variable {t : Terms Rat} {first : Rush} {granted : List Award} {now volume : Rat}

/-- A pass fills those in line for as long as there is enough. -/
theorem serve_fills (whole : t.partialGrants = false) (now : Rat) (nonneg : 0 ≤ volume)
    {waiters : List (Waiter Rat Rat)} (pending : ∀ w ∈ waiters, Pending t w) :
    let served := serve t now volume waiters
    ∃ front, waiters = front ++ served.waiters ∧ Fills volume front served.volume ∧
      awards now served.resolved = front.map (award now) ∧
      ∀ w rest, served.waiters = w :: rest → served.volume + slack < w.requested := by
  induction waiters generalizing volume with
  | nil => exact ⟨[], rfl, .nil volume, rfl, by simp [serve]⟩
  | cons w rest ih =>
    obtain ⟨waiting, pending⟩ := List.forall_mem_cons.1 pending
    obtain ⟨live, untouched, least, -⟩ := waiting
    have present : ¬ (!w.live) = true := by simp [live]
    have delivered := (deliver_whole whole untouched volume).2
    intro served
    by_cases covered : w.requested ≤ volume + slack
    · rw [if_pos covered] at delivered
      have filled : isFilled { w with granted := w.requested } = true := isFilled_of_granted rfl
      have left : 0 ≤ debited volume w.requested := by
        rw [debited_eq]
        exact le_max_right _ _
      obtain ⟨front, line, fills, awarded, stopped⟩ := ih left pending
      have passed : served = { serve t now (debited volume w.requested) rest with
          resolved := ⟨w.id, true, w.requested, Clock.span Rat w.since now⟩ ::
            (serve t now (debited volume w.requested) rest).resolved } := by
        simp only [served, serve, if_neg present, delivered, filled, if_true]
      rw [passed]
      refine ⟨w :: front, congrArg (w :: ·) line, .cons covered fills, ?_, stopped⟩
      rw [List.map_cons, ← awarded]
      rfl
    · rw [if_neg covered] at delivered
      have unfilled : ¬ isFilled w = true := by
        rw [isFilled, covers_iff, untouched]
        linarith
      have passed : served = ⟨volume, w :: rest, [], some (wakeTime t volume w now)⟩ := by
        simp only [served, serve, if_neg present, delivered, if_neg unfilled]
      rw [passed]
      refine ⟨[], rfl, .nil volume, rfl, fun w' rest' same => ?_⟩
      obtain ⟨rfl, -⟩ := List.cons.inj same
      exact not_le.1 covered

/-- If the first in line gets what it asks for when it is due, then so does everybody after it who
is filled in the same pass. -/
theorem Books.fills {front : List (Waiter Rat Rat)} {left : Rat} (fills : Fills volume front left)
    (nonneg : ∀ w ∈ front, 0 ≤ w.requested) (books : Books first granted now volume)
    (due : ∀ w ∈ front.head?, now = first.now ∨ first.supply now ≤ total granted + w.requested) :
    Books first (granted ++ front.map (award now)) now left := by
  induction fills generalizing granted with
  | nil => rwa [List.map_nil, List.append_nil]
  | @cons volume left w rest covered fills ih =>
    obtain ⟨least, others⟩ := List.forall_mem_cons.1 nonneg
    have due := due w rfl
    have next := books.grant (a := award now w) rfl least covered due
    have later : ∀ w' ∈ rest.head?, now = first.now ∨
        first.supply now ≤ total (granted ++ [award now w]) + w'.requested := by
      intro w' second
      have more := others w' (List.mem_of_mem_head? second)
      apply due.imp_right
      intro enough
      rw [total_append_singleton]
      exact enough.trans (le_add_of_nonneg_right more)
    rw [List.map_cons, List.append_cons]
    exact ih others next later

/-- The least that a servicer sleeps. -/
def nap (t : Terms Rat) : Rat := min (slack / t.rate) maxSleep

theorem nap_pos (sound : t.Sound) : 0 < nap t := by
  have longest : (0 : Rat) < maxSleep := by
    show (0 : Rat) < 31536000.0
    norm_num
  exact lt_min (div_pos slack_pos sound.rate) longest

/-- A servicer that sleeps until there is enough for the first in line, or not as long. -/
structure Dozes (t : Terms Rat) (volume now wake : Rat) (w : Waiter Rat Rat) : Prop where
  short : volume + slack < w.requested
  least : now + nap t ≤ wake
  most : (wake - now) * t.rate ≤ w.requested - volume

/-- When there is not enough for the first in line, the servicer sleeps until there is. -/
theorem dozes_wakeTime (sound : t.Sound) {w : Waiter Rat Rat} (whole : t.partialGrants = false)
    (untouched : w.granted = 0) (short : volume + slack < w.requested) (now : Rat) :
    Dozes t volume now (wakeTime t volume w now) w := by
  have all : step t w = w.requested := (deliver_whole whole untouched volume).1
  have waits : wakeTime t volume w now =
      now + min ((w.requested - volume) / t.rate) maxSleep := by
    have most : max (w.requested - volume) slack = w.requested - volume :=
      max_eq_left (by linarith)
    rw [wakeTime_eq, all, most]
  have least : slack / t.rate ≤ (w.requested - volume) / t.rate :=
    div_le_div_of_nonneg_right (by linarith) sound.rate.le
  refine ⟨short, ?_, ?_⟩
  · rw [waits]
    exact add_le_add_right (min_le_min_right _ least) now
  · rw [waits, add_sub_cancel_left, ← le_div_iff₀ sound.rate]
    exact min_le_left _ _

/-- What a pass leaves: it fills those in line for as long as there is enough, and then the servicer
ends if nobody is left, starts again if it was called, and sleeps otherwise. -/
theorem pass_fills {b : Bucket Rat Rat} (sound : b.terms.Sound)
    (whole : b.terms.partialGrants = false) (now : Rat) (nonneg : 0 ≤ b.volumeAt now)
    (pending : ∀ w ∈ b.waiters, Pending b.terms w) :
    let b' := (b.pass now).1
    (∃ front, b.waiters = front ++ b'.waiters ∧ Fills (b.volumeAt now) front b'.volume ∧
        awards now (b.pass now).2 = front.map (award now)) ∧
      (b'.servicer = .absent ∧ b'.waiters = [] ∨ b'.servicer = .ready ∧ b.permit = true ∨
        ∃ wake, ∃ w ∈ b'.waiters.head?, b'.servicer = .asleep wake ∧ b'.permit = false ∧
          Dozes b.terms b'.volume now wake w) := by
  intro b'
  obtain ⟨front, line, fills, awarded, stopped⟩ := serve_fills whole now nonneg pending
  refine ⟨⟨front, line, fills, awarded⟩, ?_⟩
  have next : (b'.servicer, b'.permit) =
      afterPass b.permit (serve b.terms now (b.volumeAt now) b.waiters).wake := rfl
  rcases serve_wake b.terms now (b.volumeAt now) b.waiters with
    ⟨done, empty⟩ | ⟨w, rest, wake, left⟩
  · rw [done] at next
    exact .inl ⟨congrArg Prod.fst next, empty⟩
  · rw [wake, afterPass] at next
    right
    by_cases called : b.permit = true
    · rw [if_pos called] at next
      exact .inl ⟨congrArg Prod.fst next, called⟩
    · rw [if_neg called] at next
      have waiting : Pending b.terms w := by
        apply pending w
        rw [line, left]
        exact List.mem_append_right _ List.mem_cons_self
      have dozes := dozes_wakeTime sound whole waiting.untouched (stopped w rest left) now
      have head : w ∈ b'.waiters.head? := congrArg List.head? left
      exact .inr ⟨_, w, head, congrArg Prod.fst next, congrArg Prod.snd next, dozes⟩

end Rush

end Turnstile.Metering
