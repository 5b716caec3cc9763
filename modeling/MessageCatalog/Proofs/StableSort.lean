/-
  MessageCatalog.Proofs.StableSort
  ────────────────────────────────
  **SORTED BY A KEY, EQUALS IN THEIR ORDER.**

  Entries are written in the order of the bytes of their keys, and entries with one
  key stay in the order they came in.  `StablySorted` says this without a word
  about the algorithm: the same elements, ordered by key, and under every single
  key the same list as before.  There is one such list for a linear order of keys
  (`StablySorted.eq`), and merge sort finds it.
-/

namespace MessageCatalog

section StableSort

variable {α κ : Type} {key : α → κ}

/-- The first key of an ordered list is its least. -/
theorem key_head_le [LE κ] {a b : α} {list : List α}
    (h : (a :: list).Pairwise fun a b => key a ≤ key b) (hb : b ∈ a :: list) :
    key b = key a ∨ key a ≤ key b := by
  rcases List.mem_cons.1 hb with rfl | hb
  · exact Or.inl rfl
  · exact Or.inr ((List.pairwise_cons.1 h).1 b hb)

variable [DecidableEq κ]

/-! ## §1. Elements under one key. -/

/-- The elements of a list under one key. -/
def under (key : α → κ) (k : κ) (list : List α) : List α :=
  list.filter fun a => key a = k

theorem under_cons_of_eq {k : κ} {a : α} (h : key a = k) (list : List α) :
    under key k (a :: list) = a :: under key k list :=
  List.filter_cons_of_pos (decide_eq_true h)

theorem under_cons_of_ne {k : κ} {a : α} (h : key a ≠ k) (list : List α) :
    under key k (a :: list) = under key k list :=
  List.filter_cons_of_neg (by simpa using h)

theorem mem_under_iff {k : κ} {a : α} {list : List α} :
    a ∈ under key k list ↔ a ∈ list ∧ key a = k := by
  unfold under
  rw [List.mem_filter, decide_eq_true_eq]

/-- Elements that are left out are left out under each key. -/
theorem under_filter (keep : α → Bool) (k : κ) (list : List α) :
    under key k (list.filter keep) = (under key k list).filter keep := by
  unfold under
  rw [List.filter_filter, List.filter_filter]
  exact List.filter_congr fun a _ => Bool.and_comm _ _

/-- Lists that are the same under every key have the same elements. -/
theorem mem_of_forall_under_eq {xs ys : List α} (h : ∀ k, under key k xs = under key k ys) {a : α}
    (ha : a ∈ xs) : a ∈ ys := by
  have hunder : a ∈ under key (key a) xs := mem_under_iff.2 ⟨ha, rfl⟩
  rw [h] at hunder
  exact (mem_under_iff.1 hunder).1

/-- No element is under a key that none of them has. -/
theorem under_eq_nil {k : κ} {list : List α} (h : k ∉ list.map key) : under key k list = [] := by
  unfold under
  rw [List.filter_eq_nil_iff]
  intro a ha hk
  exact h (List.mem_map.2 ⟨a, ha, of_decide_eq_true hk⟩)

/-- Where no key comes twice, an element is alone under its key. -/
theorem under_eq_singleton {list : List α} (h : (list.map key).Nodup) {a : α} (ha : a ∈ list) :
    under key (key a) list = [a] := by
  induction list with
  | nil => cases ha
  | cons b list ih =>
      rw [List.map_cons, List.nodup_cons] at h
      rcases List.mem_cons.1 ha with rfl | ha
      · rw [under_cons_of_eq rfl, under_eq_nil h.1]
      · have hne : key b ≠ key a := by
          intro heq
          exact h.1 (heq ▸ List.mem_map.2 ⟨a, ha, rfl⟩)
        rw [under_cons_of_ne hne, ih h.2 ha]

/-- Where no key comes twice, the order of the list does not matter under a key. -/
theorem under_eq_of_perm {list list' : List α} (h : (list.map key).Nodup)
    (hperm : list'.Perm list) (k : κ) : under key k list' = under key k list := by
  have hunder : (under key k list').Perm (under key k list) := hperm.filter _
  by_cases hk : k ∈ list.map key
  · obtain ⟨a, ha, rfl⟩ := List.mem_map.1 hk
    rw [under_eq_singleton h ha] at hunder ⊢
    exact List.perm_singleton.1 hunder
  · rw [under_eq_nil hk] at hunder ⊢
    exact hunder.eq_nil

/-- **A list comes apart under its keys**, into parts that are together the list again. -/
theorem perm_flatMap_under {keys : List κ} (hkeys : keys.Nodup) {list : List α}
    (h : ∀ a ∈ list, key a ∈ keys) : (keys.flatMap fun k => under key k list).Perm list := by
  induction keys generalizing list with
  | nil =>
      have hnil : list = [] := List.eq_nil_iff_forall_not_mem.2 fun a ha => nomatch h a ha
      rw [hnil]
      exact List.Perm.refl []
  | cons k keys ih =>
      obtain ⟨hnew, hkeys⟩ := List.nodup_cons.1 hkeys
      -- what is not under the first key is under the same of the others as before
      let rest := list.filter fun a => !decide (key a = k)
      have hrest : ∀ a ∈ rest, key a ∈ keys := by
        intro a ha
        obtain ⟨hmem, hne⟩ := List.mem_filter.1 ha
        have hk : key a ≠ k := by simpa using hne
        exact (List.mem_cons.1 (h a hmem)).resolve_left hk
      have hunder : ∀ k' ∈ keys, under key k' list = under key k' rest := by
        intro k' hk'
        have hne : k' ≠ k := fun heq => hnew (heq ▸ hk')
        unfold under rest
        rw [List.filter_filter]
        refine List.filter_congr fun a _ => ?_
        by_cases ha : key a = k'
        · simp [ha, hne]
        · simp [ha]
      rw [List.flatMap_cons, List.flatMap_def, List.map_congr_left hunder, ← List.flatMap_def]
      exact ((ih hkeys hrest).append_left _).trans (List.filter_append_perm _ list)

/-! ## §2. There is one result. -/

variable [LE κ]

/-- One list is another one, sorted by a key without reordering equal keys. -/
structure StablySorted (key : α → κ) (list sorted : List α) : Prop where
  perm : sorted.Perm list
  ordered : sorted.Pairwise fun a b => key a ≤ key b
  stable : ∀ k, under key k sorted = under key k list

/-- Ordered lists are the same as soon as they are the same under every key. -/
theorem eq_of_forall_under_eq (hantisymm : ∀ k l : κ, k ≤ l → l ≤ k → k = l) {xs ys : List α}
    (hxs : xs.Pairwise fun a b => key a ≤ key b) (hys : ys.Pairwise fun a b => key a ≤ key b)
    (h : ∀ k, under key k xs = under key k ys) : xs = ys := by
  induction xs generalizing ys with
  | nil =>
      cases ys with
      | nil => rfl
      | cons y ys => cases mem_of_forall_under_eq (fun k => (h k).symm) List.mem_cons_self
  | cons x xs ih =>
      cases ys with
      | nil => cases mem_of_forall_under_eq h List.mem_cons_self
      | cons y ys =>
          have hkey : key x = key y := by
            rcases key_head_le hys (mem_of_forall_under_eq h List.mem_cons_self) with heq | hyx
            · exact heq
            · rcases key_head_le hxs
                (mem_of_forall_under_eq (fun k => (h k).symm) List.mem_cons_self) with heq | hxy
              · exact heq.symm
              · exact hantisymm _ _ hxy hyx
          -- under the least key both lists open with their first elements
          have hfirst := h (key x)
          rw [under_cons_of_eq rfl, under_cons_of_eq hkey.symm, List.cons.injEq] at hfirst
          obtain ⟨rfl, hrest⟩ := hfirst
          have hunder : ∀ k, under key k xs = under key k ys := by
            intro k
            by_cases hk : key x = k
            · subst hk
              exact hrest
            · have hother := h k
              rw [under_cons_of_ne hk, under_cons_of_ne hk] at hother
              exact hother
          rw [ih (List.pairwise_cons.1 hxs).2 (List.pairwise_cons.1 hys).2 hunder]

/-- **A list can be sorted stably in one way only.** -/
theorem StablySorted.eq (hantisymm : ∀ k l : κ, k ≤ l → l ≤ k → k = l) {list xs ys : List α}
    (hxs : StablySorted key list xs) (hys : StablySorted key list ys) : xs = ys :=
  eq_of_forall_under_eq hantisymm hxs.ordered hys.ordered fun k =>
    (hxs.stable k).trans (hys.stable k).symm

/-- Where no key comes twice, the order of the list does not matter for the result. -/
theorem StablySorted.of_perm {list list' sorted : List α} (h : StablySorted key list' sorted)
    (hkeys : (list.map key).Nodup) (hperm : list'.Perm list) : StablySorted key list sorted :=
  ⟨h.perm.trans hperm, h.ordered, fun k => (h.stable k).trans (under_eq_of_perm hkeys hperm k)⟩

/-! ## §3. Merge sort finds it. -/

/-- **Merge sort by a key sorts stably**, for any linear order of the keys. -/
theorem stablySorted_mergeSort [DecidableLE κ] (key : α → κ)
    (htrans : ∀ k l m : κ, k ≤ l → l ≤ m → k ≤ m) (htotal : ∀ k l : κ, k ≤ l ∨ l ≤ k)
    (list : List α) :
    StablySorted key list (list.mergeSort fun a b => decide (key a ≤ key b)) := by
  have trans : ∀ a b c : α, decide (key a ≤ key b) → decide (key b ≤ key c)
      → decide (key a ≤ key c) := by
    intro a b c hab hbc
    exact decide_eq_true (htrans _ _ _ (of_decide_eq_true hab) (of_decide_eq_true hbc))
  have total : ∀ a b : α, (decide (key a ≤ key b) || decide (key b ≤ key a)) = true := by
    intro a b
    rw [Bool.or_eq_true, decide_eq_true_eq, decide_eq_true_eq]
    exact htotal _ _
  have hperm := List.mergeSort_perm list fun a b => decide (key a ≤ key b)
  refine ⟨hperm, ?_, ?_⟩
  · have hpairwise := List.pairwise_mergeSort trans total list
    exact hpairwise.imp fun h => of_decide_eq_true h
  · intro k
    -- the elements under one key are in order already, so they stay a sublist
    have hequal : (under key k list).Pairwise fun a b => decide (key a ≤ key b) := by
      rw [List.pairwise_iff_forall_sublist]
      intro a b hab
      have ha : key a = k := (mem_under_iff.1 (hab.mem List.mem_cons_self)).2
      have hb : key b = k := (mem_under_iff.1 (hab.mem (List.mem_cons_of_mem _
        List.mem_cons_self))).2
      rw [ha, hb]
      exact decide_eq_true ((htotal k k).elim id id)
    have hsub := (List.sublist_mergeSort trans total hequal List.filter_sublist).filter
      fun a => decide (key a = k)
    unfold under at hsub
    rw [List.filter_filter] at hsub
    simp only [Bool.and_self] at hsub
    exact (hsub.eq_of_length (hperm.filter _).length_eq.symm).symm

end StableSort

end MessageCatalog
