import CameraCentral.Gatt.Page
import Mathlib.Data.Nat.Find

/-!
# A discovery in pages comes to its end

How far an answer reaches is up to the peer, and so is where the next page starts.  A peer may say
that it covered nothing, or the same handles as before, or handles far behind the range, or the last
handle of all, and there is no handle behind that one.  So nothing is assumed of the answers here:
they are any sequence of handles.

That a discovery ends all the same comes down to what is asked of a single page
(`Page.next?_eq_some_iff`).  It starts behind the page before it and not behind the end of the
range, so there is at most one page for each handle of the range (`Page.paging_ends`).
-/

namespace CameraCentral

namespace Page

variable {first start next last stop : AttHandle} {answers : Nat → AttHandle} {i j : Nat}

/-! ## One page -/

/-- There is a handle behind one that lies before another. -/
theorem toNat_add_one (h : last < stop) : (last + 1).toNat = last.toNat + 1 := by
  have hlast : last.toNat < stop.toNat := UInt16.lt_iff_toNat_lt.1 h
  have hstop : stop.toNat < 2 ^ 16 := stop.toNat_lt
  rw [UInt16.toNat_add, UInt16.toNat_one]
  exact Nat.mod_eq_of_lt (by omega)

/-- A page starts right behind the last handle that was covered, if the answer reached the page
before it and did not reach the end of the range. -/
theorem next?_eq_some_iff :
    next? start last stop = some next ↔
      start ≤ last ∧ last < stop ∧ next.toNat = last.toNat + 1 := by
  unfold next?
  rw [Option.ite_none_right_eq_some, Option.some_inj]
  constructor
  · rintro ⟨⟨hlast, hstart, hstop⟩, rfl⟩
    have hnext := toNat_add_one hlast
    rw [UInt16.lt_iff_toNat_lt, hnext] at hstart
    rw [UInt16.le_iff_toNat_le, hnext] at hstop
    exact ⟨UInt16.le_iff_toNat_le.2 (by omega), UInt16.lt_iff_toNat_lt.2 hstop, hnext⟩
  · rintro ⟨hstart, hstop, hnext⟩
    have hsucc := toNat_add_one hstop
    have hbound : stop.toNat < 2 ^ 16 := stop.toNat_lt
    rw [UInt16.le_iff_toNat_le] at hstart
    rw [UInt16.lt_iff_toNat_lt] at hstop
    refine ⟨⟨UInt16.lt_iff_toNat_lt.2 ?_, UInt16.lt_iff_toNat_lt.2 ?_,
      UInt16.le_iff_toNat_le.2 ?_⟩, UInt16.toNat_inj.1 (hsucc.trans hnext.symm)⟩
    · exact Nat.lt_of_lt_of_le hstop (Nat.le_of_lt_succ hbound)
    · omega
    · omega

/-- There is no other page exactly if the answer fell behind the page that it was given to, or
reached the end of the range. -/
theorem next?_eq_none_iff : next? start last stop = none ↔ last < start ∨ stop ≤ last := by
  rw [← not_iff_not, ← ne_eq, Option.ne_none_iff_exists', not_or, UInt16.not_lt, UInt16.not_le]
  constructor
  · rintro ⟨next, h⟩
    obtain ⟨hstart, hstop, -⟩ := next?_eq_some_iff.1 h
    exact ⟨hstart, hstop⟩
  · rintro ⟨hstart, hstop⟩
    exact ⟨last + 1, next?_eq_some_iff.2 ⟨hstart, hstop, toNat_add_one hstop⟩⟩

/-! ## All pages -/

/-- Where the page with number `i` of a discovery starts, if there is one.  The answer to that page
covers the handles up to `answers i`. -/
def start? (first stop : AttHandle) (answers : Nat → AttHandle) : Nat → Option AttHandle
  | 0 => some first
  | i + 1 => (start? first stop answers i).bind fun start => next? start (answers i) stop

/-- A page but the first lies behind the page before it and not behind the end of the range, and it
starts right behind what the answer to the page before it covered. -/
theorem exists_of_start?_succ (h : start? first stop answers (i + 1) = some next) :
    ∃ start, start? first stop answers i = some start ∧ start < next ∧ next ≤ stop ∧
      next.toNat = (answers i).toNat + 1 := by
  obtain ⟨start, hstart, hpage⟩ := Option.bind_eq_some_iff.1 h
  obtain ⟨hreached, hopen, hnext⟩ := next?_eq_some_iff.1 hpage
  rw [UInt16.le_iff_toNat_le] at hreached
  rw [UInt16.lt_iff_toNat_lt] at hopen
  exact ⟨start, hstart, UInt16.lt_iff_toNat_lt.2 (by omega), UInt16.le_iff_toNat_le.2 (by omega),
    hnext⟩

/-- There are no pages behind the last one. -/
theorem start?_eq_none_of_le (hij : i ≤ j) (hi : start? first stop answers i = none) :
    start? first stop answers j = none := by
  induction j, hij using Nat.le_induction with
  | base => exact hi
  | succ j _ ih => rw [start?, ih, Option.bind_none]

/-- Every page starts behind all those before it. -/
theorem start?_lt_start? (hij : i < j) (hi : start? first stop answers i = some start)
    (hj : start? first stop answers j = some next) : start < next := by
  induction j, hij using Nat.le_induction generalizing next with
  | base =>
    obtain ⟨before, hbefore, hlt, -⟩ := exists_of_start?_succ hj
    obtain rfl : start = before := Option.some.inj (hi.symm.trans hbefore)
    exact hlt
  | succ j _ ih =>
    obtain ⟨before, hbefore, hlt, -⟩ := exists_of_start?_succ hj
    exact UInt16.lt_trans (ih hbefore) hlt

/-- Pages start within the range, and each uses up a handle of it at least. -/
theorem start?_within (range : first ≤ stop) (h : start? first stop answers i = some start) :
    first.toNat + i ≤ start.toNat ∧ start ≤ stop := by
  induction i generalizing start with
  | zero =>
    obtain rfl : first = start := Option.some.inj h
    exact ⟨Nat.le_refl _, range⟩
  | succ i ih =>
    obtain ⟨before, hbefore, hlt, hstop, -⟩ := exists_of_start?_succ h
    obtain ⟨hused, -⟩ := ih hbefore
    rw [UInt16.lt_iff_toNat_lt] at hlt
    exact ⟨by omega, hstop⟩

/-- There are no more pages than handles in the range. -/
theorem exists_count (range : first ≤ stop) (answers : Nat → AttHandle) :
    ∃ count ≤ stop.toNat - first.toNat + 1,
      ∀ i, (start? first stop answers i).isSome ↔ i < count := by
  have hend : start? first stop answers (stop.toNat - first.toNat + 1) = none := by
    by_contra hne
    obtain ⟨start, hstart⟩ := Option.ne_none_iff_exists'.1 hne
    obtain ⟨hused, hstop⟩ := start?_within range hstart
    rw [UInt16.le_iff_toNat_le] at hstop
    omega
  have hex : ∃ i, start? first stop answers i = none := ⟨_, hend⟩
  refine ⟨Nat.find hex, Nat.find_min' hex hend, fun i => ?_⟩
  rw [Option.isSome_iff_ne_none]
  constructor
  · intro hi
    by_contra hle
    exact hi (start?_eq_none_of_le (Nat.not_lt.1 hle) (Nat.find_spec hex))
  · exact Nat.find_min hex

/-- **A discovery in pages ends, whatever the peer answers**, and skips nothing.  There are at most
as many pages as handles in the range.  Every page starts behind all those before it and within the
range, and right behind the handles that the answer to the page before it covered.  A page is the
last one exactly if its answer fell behind it or reached the end of the range. -/
theorem paging_ends (first stop : AttHandle) (range : first ≤ stop) (answers : Nat → AttHandle) :
    (∃ count ≤ stop.toNat - first.toNat + 1,
      ∀ i, (start? first stop answers i).isSome ↔ i < count) ∧
    (∀ i j start next, i < j → start? first stop answers i = some start →
      start? first stop answers j = some next → start < next) ∧
    ∀ i start, start? first stop answers i = some start →
      (first ≤ start ∧ start ≤ stop) ∧
      (∀ next, start? first stop answers (i + 1) = some next →
        next.toNat = (answers i).toNat + 1) ∧
      (start? first stop answers (i + 1) = none ↔ answers i < start ∨ stop ≤ answers i) := by
  refine ⟨exists_count range answers, fun i j start next => start?_lt_start?,
    fun i start hstart => ⟨?_, fun next hnext => ?_, ?_⟩⟩
  · obtain ⟨hused, hstop⟩ := start?_within range hstart
    exact ⟨UInt16.le_iff_toNat_le.2 (by omega), hstop⟩
  · obtain ⟨-, -, -, -, hbehind⟩ := exists_of_start?_succ hnext
    exact hbehind
  · rw [start?, hstart, Option.bind_some]
    exact next?_eq_none_iff

/-- A peer that covers a few handles at a time and then the last handle that there is gets three
pages: behind that handle there is no other, and least of all the handle 0. -/
theorem paging_ends_at_last_handle :
    let answers : Nat → AttHandle := fun i => [0xFFF4, 0xFFFE].getD i 0xFFFF
    (0xFFF0 : AttHandle) ≤ 0xFFFF ∧ start? 0xFFF0 0xFFFF answers 2 = some 0xFFFF ∧
      ∀ i, (start? 0xFFF0 0xFFFF answers i).isSome ↔ i < 3 := by
  intro answers
  have range : (0xFFF0 : AttHandle) ≤ 0xFFFF := by decide
  have hlast : start? 0xFFF0 0xFFFF answers 2 = some 0xFFFF := by decide
  obtain ⟨⟨count, -, hcount⟩, -, hpages⟩ := paging_ends 0xFFF0 0xFFFF range answers
  obtain ⟨-, -, hend⟩ := hpages 2 0xFFFF hlast
  have hnone : start? 0xFFF0 0xFFFF answers 3 = none := hend.2 (.inr (by decide))
  have hmore : 2 < count := (hcount 2).1 (by rw [hlast]; rfl)
  have hless : ¬ 3 < count := fun h => by simpa [hnone] using (hcount 3).2 h
  obtain rfl : count = 3 := by omega
  exact ⟨range, hlast, hcount⟩

end Page

end CameraCentral
