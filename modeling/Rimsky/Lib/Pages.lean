import Mathlib.Data.List.Nodup

/-!
# Pages by key

A list is walked in pages. Each page has the first elements with a key above the cursor, and the
key of its last one is the next cursor. The pages have every element once exactly where the key at
the end of each full page separates the elements up to it from the others.
-/

namespace Rimsky

open List

variable {α κ : Type} (key : α → κ) (xs : List α) (k : Nat) (start : κ)

def lastKey (c : κ) : κ :=
  (xs.getLast?.map key).getD c

/-- Full pages end between `before` and `after`. -/
structure PageEnd (before after : List α) : Prop where
  whole : before ++ after = xs
  full : k ∣ before.length

/-- A cursor separates what is before it from what is after it. -/
structure Separates [LE κ] [LT κ] (c : κ) (before after : List α) : Prop where
  below : ∀ x ∈ before, key x ≤ c
  above : ∀ x ∈ after, c < key x

variable [LE κ] [DecidableLE κ]

def page (c : κ) : List α :=
  (xs.filter fun x => ¬key x ≤ c).take k

/-- The pages after a cursor, up to the first that is not full. -/
def pages : Nat → κ → Option (List α)
  | 0, _ => none
  | fuel + 1, c =>
    let page := page key xs k c
    if k ≤ page.length then (pages fuel (lastKey key page c)).map (page ++ ·) else some page

variable {key xs k start} {fuel : Nat} {c : κ} {before after out : List α}

theorem PageEnd.next (ended : PageEnd xs k before after) (full : k ≤ after.length) :
    PageEnd xs k (before ++ after.take k) (after.drop k) where
  whole := by simpa using ended.whole
  full := by
    rw [length_append, length_take, Nat.min_eq_left full]
    exact Nat.dvd_add ended.full (Nat.dvd_refl k)

theorem page_isPrefix (listed : pages key xs k (fuel + 1) c = some out) :
    page key xs k c <+: out := by
  rw [pages] at listed
  split at listed
  · rcases Option.map_eq_some_iff.mp listed with ⟨rest, -, rfl⟩
    exact prefix_append ..
  · cases listed
    exact prefix_rfl

variable [LT κ] [Std.IsLinearOrder κ] [Std.LawfulOrderLT κ]

omit [DecidableLE κ] in
theorem PageEnd.separates (ended : PageEnd xs k before after)
    (increasing : (start :: xs.map key).Pairwise (· < ·)) :
    Separates key (lastKey key before start) before after := by
  rcases ended with ⟨rfl, -⟩
  rw [pairwise_cons, pairwise_map] at increasing
  rcases eq_nil_or_concat' before with rfl | ⟨before, last, rfl⟩
  · exact ⟨by simp, by simpa [lastKey] using increasing.1⟩
  · rcases pairwise_append.mp increasing.2 with ⟨inner, -, across⟩
    have lastKey : lastKey key (before ++ [last]) start = key last := by simp [lastKey]
    rw [lastKey]
    refine ⟨fun x mem => ?_, across last (by simp)⟩
    rcases mem_append.mp mem with mem | mem
    · exact Std.le_of_lt ((pairwise_append.mp inner).2.2 x mem last (by simp))
    · cases mem_singleton.mp mem
      exact Std.le_refl _

theorem lt_key_of_mem_page {x : α} (mem : x ∈ page key xs k c) : c < key x := by
  simpa [Std.not_le] using (mem_filter.mp (mem_of_mem_take mem)).2

theorem lt_lastKey_page (some : page key xs k c ≠ []) : c < lastKey key (page key xs k c) c := by
  have mem := getLast_mem some
  rw [lastKey, getLast?_eq_some_getLast some]
  exact lt_key_of_mem_page (x := (page key xs k c).getLast some) mem

theorem Separates.page_eq (separates : Separates key c before after)
    (whole : before ++ after = xs) : page key xs k c = after.take k := by
  rw [← whole, page, filter_append, filter_eq_nil_iff.mpr, filter_eq_self.mpr,
    nil_append]
  · intro x mem
    simpa [Std.not_le] using separates.above x mem
  · intro x mem
    simpa using separates.below x mem

variable (positive : 0 < k)

include positive

theorem lt_key_of_mem_pages (listed : pages key xs k fuel c = some out) :
    ∀ x ∈ out, c < key x := by
  induction fuel generalizing c out with
  | zero => cases listed
  | succ fuel ih =>
    rw [pages] at listed
    split at listed
    · rename_i full
      rcases Option.map_eq_some_iff.mp listed with ⟨rest, later, rfl⟩
      intro x mem
      rcases mem_append.mp mem with mem | mem
      · exact lt_key_of_mem_page mem
      · have some : page key xs k c ≠ [] := length_pos_iff.mp (by omega)
        exact Std.lt_trans (lt_lastKey_page some) (ih later x mem)
    · cases listed
      exact fun x => lt_key_of_mem_page

theorem Separates.pages_succ (separates : Separates key (lastKey key before start) before after)
    (whole : before ++ after = xs) (full : k ≤ after.length) :
    pages key xs k (fuel + 1) (lastKey key before start) =
      (pages key xs k fuel (lastKey key (before ++ after.take k) start)).map
        (after.take k ++ ·) := by
  have length : (after.take k).length = k := length_take_of_le full
  have some : after.take k ≠ [] := length_pos_iff.mp (by omega)
  rw [pages, separates.page_eq whole, if_pos (by omega)]
  simp [lastKey, getLast?_eq_some_getLast some]

theorem pages_of_separates (ended : PageEnd xs k before after)
    (separates : ∀ {before after}, PageEnd xs k before after →
      Separates key (lastKey key before start) before after) (enough : after.length < fuel) :
    pages key xs k fuel (lastKey key before start) = some after := by
  induction fuel generalizing before after with
  | zero => omega
  | succ fuel ih =>
    by_cases full : k ≤ after.length
    · rw [(separates ended).pages_succ positive ended.whole full, ih (ended.next full)]
      · simp
      · rw [length_drop]
        omega
    · rw [pages, (separates ended).page_eq ended.whole, take_of_length_le (by omega),
        if_neg full]

theorem separates_of_pages (nodup : (before ++ after).Nodup)
    (listed : pages key (before ++ after) k (fuel + 1) c = some out) (once : (before ++ out).Nodup)
    (all : ∀ x ∈ after, x ∈ before ++ out) : Separates key c before after := by
  rw [nodup_append'] at once nodup
  constructor
  · intro x mem
    by_contra above
    -- the next page begins with an element that was listed before
    have again : before.filter (fun x => ¬key x ≤ c) ≠ [] :=
      ne_nil_of_mem (mem_filter.mpr ⟨mem, by simpa using above⟩)
    rcases exists_cons_of_ne_nil again with ⟨y, rest, first⟩
    have mem : y ∈ before := (mem_filter.mp (first ▸ mem_cons_self)).1
    refine once.2.2 mem ((page_isPrefix listed).subset ?_)
    rcases Nat.exists_eq_add_of_lt positive with ⟨k, rfl⟩
    rw [page, filter_append, first]
    simp
  · intro x mem
    rcases mem_append.mp (all x mem) with earlier | later
    · exact absurd mem (nodup.2.2 earlier)
    · exact lt_key_of_mem_pages positive listed x later

theorem separates_of_listed (nodup : xs.Nodup) (ended : PageEnd xs k before after)
    (listed : pages key xs k fuel (lastKey key before start) = some out)
    (once : (before ++ out).Nodup) (all : ∀ x ∈ xs, x ∈ before ++ out) {b a : List α}
    (later : PageEnd xs k b a) (longer : before.length ≤ b.length) :
    Separates key (lastKey key b start) b a := by
  induction fuel generalizing before after out with
  | zero => cases listed
  | succ fuel ih =>
    rcases ended with ⟨rfl, ends⟩
    have separates := separates_of_pages positive nodup listed once fun x mem =>
      all x (mem_append_right _ mem)
    rcases Nat.eq_or_lt_of_le longer with same | longer
    · rcases append_inj later.whole.symm same with ⟨rfl, rfl⟩
      exact separates
    · have page : k ≤ b.length - before.length :=
        Nat.le_of_dvd (by omega) (Nat.dvd_sub later.full ends)
      have full : k ≤ after.length := by
        have lengths := congrArg length later.whole
        rw [length_append, length_append] at lengths
        omega
      rw [separates.pages_succ positive rfl full] at listed
      rcases Option.map_eq_some_iff.mp listed with ⟨rest, onward, rfl⟩
      rw [← append_assoc] at once all
      refine ih (PageEnd.next ⟨rfl, ends⟩ full) onward once all ?_
      rw [length_append, length_take]
      omega

theorem pages_once_iff (nodup : xs.Nodup) :
    (∃ fuel out, pages key xs k fuel start = some out ∧ out.Nodup ∧ ∀ x, x ∈ out ↔ x ∈ xs) ↔
      ∀ {before after}, PageEnd xs k before after →
        Separates key (lastKey key before start) before after := by
  have first : PageEnd xs k [] xs := ⟨rfl, Nat.dvd_zero k⟩
  constructor
  · rintro ⟨fuel, out, listed, once, all⟩ before after ended
    exact separates_of_listed positive nodup first listed once (fun x => (all x).mpr) ended
      (Nat.zero_le _)
  · intro separates
    refine ⟨xs.length + 1, xs, ?_, nodup, fun x => Iff.rfl⟩
    exact pages_of_separates positive first separates (Nat.lt_succ_self _)

end Rimsky
