import Mathlib.Data.List.Forall2
import Mathlib.Data.List.Nodup
import Mathlib.Data.List.Perm.Basic
import SchemaLedger.Merge.Matching
import SchemaLedger.Merge.Notice

/-!
# Going through a plan

Each scope is merged in the same way. The planned elements are taken up in order while the store
changes; each of them either replaces the stored element that it was matched with or adds a new one;
and in the end the elements are brought into the order of the plan. What this does to the list of
elements does not depend on what the elements are, so it is proved once.

The main statement is `Traversal.settles`: if the elements wanted by the plan have distinct keys,
then exactly they are replaced, each in its turn, and what is left are the new elements.
-/

namespace SchemaLedger.Merge

theorem forall₂_and_mem {α β : Type} {R : α → β → Prop} {as : List α} {bs : List β}
    (h : List.Forall₂ R as bs) : List.Forall₂ (fun a b => R a b ∧ b ∈ bs) as bs :=
  List.forall₂_iff_zip.mpr ⟨h.length_eq, fun both =>
    ⟨(List.forall₂_iff_zip.mp h).2 both, (List.of_mem_zip both).2⟩⟩

/-- What is known of pairs and only concerns their first parts is known of these. -/
theorem forall₂_of_zip {α β γ : Type} {R : α → γ → Prop} {as : List α} {bs : List β} {cs : List γ}
    (lengths : as.length = bs.length) (h : List.Forall₂ (fun a c => R a.1 c) (as.zip bs) cs) :
    List.Forall₂ R as cs := by
  have firsts : (as.zip bs).map Prod.fst = as := List.map_fst_zip (Nat.le_of_eq lengths)
  rw [← firsts]
  exact List.forall₂_map_left_iff.mpr h

/-- What is known of elements with their partners, and of the pairs they make, is known of each
element. -/
theorem exists_of_forall₂_zip {α β γ : Type} {R : α → β → Prop} {Q : α × β → γ → Prop} {as : List α}
    {bs : List β} {cs : List γ} (h : List.Forall₂ R as bs) (h' : List.Forall₂ Q (as.zip bs) cs)
    {a : α} {c : γ} (listed : (a, c) ∈ as.zip cs) : ∃ b ∈ bs, R a b ∧ Q (a, b) c := by
  induction h generalizing cs with
  | nil => simp at listed
  | cons first _ ih =>
      cases h' with
      | cons second rest =>
          rcases List.mem_cons.mp listed with same | listed
          · obtain ⟨rfl, rfl⟩ := Prod.mk.inj same
            exact ⟨_, List.mem_cons_self, first, second⟩
          · obtain ⟨b, hb, both⟩ := ih rest listed
            exact ⟨b, List.mem_cons_of_mem _ hb, both⟩

/-- The only element that meets a condition is found. -/
theorem find?_eq_some_of_only {β : Type} {hit : β → Bool} {xs : List β} {x : β} (there : x ∈ xs)
    (hits : hit x) (only : ∀ y ∈ xs, hit y → y = x) : xs.find? hit = some x := by
  cases located : xs.find? hit with
  | none => exact absurd hits (List.find?_eq_none.mp located x there)
  | some y => rw [only y (List.mem_of_find?_eq_some located) (List.find?_some located)]

/-- A list is gone through while a state changes; each element leaves one result. -/
inductive Traversal {σ α ω : Type} (step : σ → α → ω → σ → Prop) :
    σ → List α → List ω → σ → Prop
  | nil {s : σ} : Traversal step s [] [] s
  | cons {s t u : σ} {a : α} {b : ω} {as : List α} {bs : List ω} :
      step s a b t → Traversal step t as bs u → Traversal step s (a :: as) (b :: bs) u

namespace Traversal

variable {σ α ω β : Type} {step : σ → α → ω → σ → Prop} {s t : σ} {as : List α} {bs : List ω}

/-- What every step keeps holds in the end, and what every step tells of an element and its result
holds of all of them. -/
theorem invariant {I : σ → Prop} {R : α → ω → Prop} (h : Traversal step s as bs t) (start : I s)
    (keeps : ∀ s t, ∀ a ∈ as, ∀ b ∈ bs, step s a b t → I s → I t ∧ R a b) :
    I t ∧ List.Forall₂ R as bs := by
  induction h with
  | nil => exact ⟨start, .nil⟩
  | @cons s t u a b as bs first rest ih =>
      obtain ⟨next, ab⟩ := keeps s t a (by simp) b (by simp) first start
      obtain ⟨final, others⟩ := ih next (by
        intro s t a ha b hb
        exact keeps s t a (List.mem_cons_of_mem _ ha) b (List.mem_cons_of_mem _ hb))
      exact ⟨final, .cons ab others⟩

/-- What every step keeps holds in the end. -/
theorem preserves {I : σ → Prop} (h : Traversal step s as bs t) (start : I s)
    (keeps : ∀ s t, ∀ a ∈ as, ∀ b ∈ bs, step s a b t → I s → I t) : I t := by
  obtain ⟨final, -⟩ := h.invariant (R := fun _ _ => True) start (by
    intro s t a ha b hb step so_far
    exact ⟨keeps s t a ha b hb step so_far, trivial⟩)
  exact final

/-- Every element has its step. -/
theorem each (h : Traversal step s as bs t) :
    List.Forall₂ (fun a b => ∃ s t, step s a b t) as bs :=
  (h.invariant (I := fun _ => True) trivial fun s t _ _ _ _ step _ =>
    ⟨trivial, s, t, step⟩).2

theorem length_eq (h : Traversal step s as bs t) : as.length = bs.length := by
  induction h with
  | nil => rfl
  | cons _ _ ih => simp [ih]

end Traversal

/-- What merging makes of a planned element: the stored element that was found for it, the element
that has taken its place, and what was reported. -/
structure Settled (β : Type) where
  found : Option β
  made : β
  notices : List Notice

/-- In a list, the element `found` gives way to `y`; where none was found, `y` is added. Where the
elements stand does not matter, since they are ordered in the end. -/
inductive Touches {β : Type} : List β → Option β → β → List β → Prop
  | replaced {xs ys rest : List β} {x y : β} :
      xs.Perm (x :: rest) → ys.Perm (y :: rest) → Touches xs (some x) y ys
  | added {xs ys : List β} {y : β} : ys.Perm (y :: xs) → Touches xs none y ys

/-- Replacing the element at a position touches it. -/
theorem Touches.set {β : Type} {xs : List β} {j : Nat} {x : β} (y : β) (h : xs[j]? = some x) :
    Touches xs (some x) y (xs.set j y) := by
  induction xs generalizing j with
  | nil => simp at h
  | cons z zs ih =>
      cases j with
      | zero =>
          obtain rfl : z = x := by simpa using h
          exact .replaced (.refl _) (.refl _)
      | succ j =>
          cases ih (j := j) (by simpa using h) with
          | replaced before after =>
              exact .replaced ((before.cons z).trans (.swap _ _ _))
                ((after.cons z).trans (.swap _ _ _))

theorem Touches.append {β : Type} (xs : List β) (y : β) : Touches xs none y (xs ++ [y]) :=
  .added (List.perm_append_singleton y xs)

/-- What belongs to the elements of a list belongs to those of the touched one, or to the element
that was replaced. -/
theorem Touches.mem_flatMap {β γ : Type} {xs ys : List β} {found : Option β} {y : β} {c : γ}
    (h : Touches xs found y ys) (of : β → List γ) (hc : c ∈ xs.flatMap of) :
    c ∈ ys.flatMap of ∨ ∃ x, found = some x ∧ c ∈ of x := by
  obtain ⟨z, hz, hc⟩ := List.mem_flatMap.mp hc
  cases h with
  | replaced before after =>
      rcases List.mem_cons.mp (before.mem_iff.mp hz) with rfl | hz
      · exact .inr ⟨_, rfl, hc⟩
      · exact .inl (List.mem_flatMap.mpr ⟨z, after.mem_iff.mpr (List.mem_cons_of_mem _ hz), hc⟩)
  | added after =>
      exact .inl (List.mem_flatMap.mpr ⟨z, after.mem_iff.mpr (List.mem_cons_of_mem _ hz), hc⟩)

/-- The keys of the elements that are not replaced stay. -/
theorem Touches.mem_map_of_ne {β γ : Type} {xs ys : List β} {found : Option β} {y : β}
    (h : Touches xs found y ys) {key : β → γ} {k : γ} (hk : k ∈ xs.map key)
    (other : ∀ x, found = some x → key x ≠ k) : k ∈ ys.map key := by
  rw [List.map_eq_flatMap] at hk ⊢
  rcases h.mem_flatMap _ hk with hk | ⟨x, found, hk⟩
  · exact hk
  · exact absurd (List.mem_singleton.mp hk).symm (other x found)

theorem Touches.mem {β : Type} {xs ys : List β} {found : Option β} {y : β}
    (h : Touches xs found y ys) : y ∈ ys := by
  cases h with
  | replaced _ after => exact after.mem_iff.mpr (by simp)
  | added after => exact after.mem_iff.mpr (by simp)

/-- What is replaced was there. -/
theorem Touches.found_mem {β : Type} {xs ys : List β} {found : Option β} {x y : β}
    (h : Touches xs found y ys) (is_found : found = some x) : x ∈ xs := by
  cases h with
  | replaced before _ =>
      obtain rfl := Option.some.inj is_found
      exact before.mem_iff.mpr List.mem_cons_self
  | added => cases is_found

/-- What is there afterwards is the new element, or was there before. -/
theorem Touches.eq_or_mem {β : Type} {xs ys : List β} {found : Option β} {y z : β}
    (h : Touches xs found y ys) (hz : z ∈ ys) : z = y ∨ z ∈ xs := by
  cases h with
  | replaced before after =>
      exact (List.mem_cons.mp (after.mem_iff.mp hz)).imp_right fun hz =>
        before.mem_iff.mpr (List.mem_cons_of_mem _ hz)
  | added after => exact List.mem_cons.mp (after.mem_iff.mp hz)

section Parts

variable {β : Type} {xs ys done pending : List β} {x x₀ y : β}

/-- An added element joins those that are done. -/
theorem Touches.parts_of_added (h : Touches xs none y ys) (parts : xs.Perm (done ++ pending)) :
    ys.Perm ((done ++ [y]) ++ pending) := by
  cases h with
  | added after =>
      refine after.trans ((parts.cons _).trans ?_)
      simpa using List.perm_middle.symm

/-- If its key is found nowhere else, the replaced element is the next one that was pending. -/
theorem Touches.parts_of_replaced {key : β → UInt64} (h : Touches xs (some x) y ys)
    (parts : xs.Perm (done ++ x₀ :: pending)) (same : key x = key x₀)
    (apart : ∀ d ∈ done, key d ≠ key x₀) (only : key x₀ ∉ pending.map key) :
    x = x₀ ∧ ys.Perm ((done ++ [y]) ++ pending) := by
  cases h with
  | replaced before after =>
      next rest =>
      have member : x ∈ done ++ x₀ :: pending :=
        parts.mem_iff.mp (before.mem_iff.mpr (by simp))
      obtain rfl : x = x₀ := by
        rcases List.mem_append.mp member with hd | hp
        · exact absurd same (apart x hd)
        · rcases List.mem_cons.mp hp with rfl | hp
          · rfl
          · exact absurd (List.mem_map.mpr ⟨x, hp, same⟩) only
      have left : rest.Perm (done ++ pending) :=
        (before.symm.trans (parts.trans List.perm_middle)).cons_inv
      refine ⟨rfl, after.trans ((left.cons _).trans ?_)⟩
      simpa using List.perm_middle.symm

end Parts

namespace Traversal

variable {σ α β : Type} {step : σ → α → Settled β → σ → Prop} {s t : σ} {as : List α}
variable {bs : List (Settled β)}

/-- The elements of a traversal fall into those already made and those still wanted. A step makes
its result from the wanted element with its key, unless none is wanted; no result takes a key that
is wanted later. So all wanted elements are found, in order, and the results take their place. -/
theorem settles (items : σ → List β) (key : β → UInt64) (want : α → Option UInt64)
    {taken : List UInt64} (h : Traversal step s as bs t)
    (touches : ∀ s a b t, step s a b t → Touches (items s) b.found b.made (items t))
    (finds : ∀ s a b t, step s a b t → b.found.map key = want a)
    (avoids : ∀ s t, ∀ a ∈ as, ∀ b ∈ bs, step s a b t → want a = some (key b.made) ∨
      key b.made ∉ (items s).map key ∨ key b.made ∉ taken)
    {done pending : List β} (parts : (items s).Perm (done ++ pending))
    (wanted : pending.map key = as.filterMap want) (distinct : (as.filterMap want).Nodup)
    (apart : ∀ d ∈ done, key d ∉ as.filterMap want) (within : as.filterMap want ⊆ taken) :
    bs.filterMap Settled.found = pending ∧ (items t).Perm (done ++ bs.map Settled.made) := by
  induction h generalizing done pending with
  | nil =>
      obtain rfl : pending = [] := by simpa using wanted
      exact ⟨rfl, by simpa using parts⟩
  | @cons s t u a b as bs first rest ih =>
      have touched := touches s a b t first
      have key_found := finds s a b t first
      have avoided := avoids s t a (by simp) b (by simp) first
      have ih := @ih fun s t a ha b hb =>
        avoids s t a (List.mem_cons_of_mem _ ha) b (List.mem_cons_of_mem _ hb)
      -- the key of the result is not wanted by what is left
      have spare : key b.made ∈ as.filterMap want → want a = some (key b.made) := by
        intro hu
        have listed : key b.made ∈ (a :: as).filterMap want := by
          cases hw : want a <;> simp [hw, hu]
        rcases avoided with own | fresh | free
        · exact own
        · rw [← wanted] at listed
          obtain ⟨x, hx, hk⟩ := List.mem_map.mp listed
          exact absurd (List.mem_map.mpr
            ⟨x, parts.mem_iff.mpr (List.mem_append_right _ hx), hk⟩) fresh
        · exact absurd (within listed) free
      cases hw : want a with
      | none =>
          have nothing : b.found = none := by simpa [hw] using key_found
          rw [List.filterMap_cons_none hw] at wanted distinct apart within
          rw [nothing] at touched
          have unasked : key b.made ∉ as.filterMap want := fun hu => by simpa [hw] using spare hu
          have apart' := List.forall_mem_append.mpr ⟨apart, List.forall_mem_singleton.mpr unasked⟩
          obtain ⟨all, final⟩ := ih (touched.parts_of_added parts) wanted distinct apart' within
          exact ⟨by rw [List.filterMap_cons_none nothing, all], by simpa using final⟩
      | some k =>
          obtain ⟨x, hx, hk⟩ := Option.map_eq_some_iff.mp (key_found.trans hw)
          rw [List.filterMap_cons_some hw] at wanted distinct apart within
          obtain ⟨only, distinct⟩ := List.nodup_cons.mp distinct
          cases pending with
          | nil => simp at wanted
          | cons x₀ pending =>
              obtain ⟨hk₀, wanted'⟩ := List.cons.inj wanted
              rw [hx] at touched
              obtain ⟨rfl, parts'⟩ := touched.parts_of_replaced parts (hk.trans hk₀.symm)
                (fun d hd same => apart d hd (by simp [same, hk₀]))
                (by rw [wanted', hk₀]; exact only)
              have before : ∀ d ∈ done, key d ∉ as.filterMap want := fun d hd hu =>
                apart d hd (List.mem_cons_of_mem _ hu)
              have unasked : key b.made ∉ as.filterMap want := by
                intro hu
                obtain rfl := Option.some.inj (hw.symm.trans (spare hu))
                exact only hu
              have apart' := List.forall_mem_append.mpr
                ⟨before, List.forall_mem_singleton.mpr unasked⟩
              obtain ⟨all, final⟩ := ih parts' wanted' distinct apart'
                fun u hu => within (List.mem_cons_of_mem _ hu)
              exact ⟨by rw [List.filterMap_cons_some hx, all], by simpa using final⟩

end Traversal

section Keys

variable {β : Type} {key : β → UInt64} {xs ys : List β} {ks : List UInt64}

theorem of_findIdx? {uid : UInt64} {j : Nat} (h : xs.findIdx? (key · = uid) = some j) :
    ∃ x, xs[j]? = some x ∧ key x = uid := by
  obtain ⟨lt, same, -⟩ := List.findIdx?_eq_some_iff_getElem.mp h
  exact ⟨xs[j], List.getElem?_eq_getElem lt, by simpa using same⟩

/-- The elements with the given keys, in the order of the keys. -/
def select (key : β → UInt64) (xs : List β) (ks : List UInt64) : List β :=
  ks.filterMap fun k => xs.find? (key · = k)

theorem map_select (present : ∀ k ∈ ks, k ∈ xs.map key) : (select key xs ks).map key = ks := by
  induction ks with
  | nil => rfl
  | cons k ks ih =>
      obtain ⟨x, hx, hk⟩ := List.mem_map.mp (present k (by simp))
      cases hf : xs.find? (key · = k) with
      | none => exact absurd hk (by simpa using List.find?_eq_none.mp hf x hx)
      | some y =>
          have hy : key y = k := by simpa using List.find?_some hf
          have rest := ih fun k hk => present k (List.mem_cons_of_mem _ hk)
          have split : select key xs (k :: ks) = y :: select key xs ks :=
            List.filterMap_cons_some hf
          rw [split, List.map_cons, hy, rest]

theorem mem_of_mem_select {x : β} (h : x ∈ select key xs ks) : x ∈ xs := by
  obtain ⟨k, -, hf⟩ := List.mem_filterMap.mp h
  exact List.mem_of_find?_eq_some hf

/-- If the elements that were found are selected ones, then each of them was there. -/
theorem mem_of_found {rs : List (Settled β)} (all : rs.filterMap (·.found) = select key xs ks)
    {r : Settled β} (hr : r ∈ rs) {x : β} (found : r.found = some x) : x ∈ xs := by
  apply mem_of_mem_select
  rw [← all]
  exact List.mem_filterMap.mpr ⟨r, hr, found⟩

/-- Among elements with distinct keys, those with a key in a list are those selected by it. -/
theorem filter_perm_select (distinct : (xs.map key).Nodup) (nodup : ks.Nodup)
    (present : ∀ k ∈ ks, k ∈ xs.map key) :
    (xs.filter (key · ∈ ks)).Perm (select key xs ks) := by
  have keys := map_select present
  refine (List.perm_ext_iff_of_nodup (distinct.of_map.filter _) ?_).mpr ?_
  · exact List.Nodup.of_map (f := key) (by rw [keys]; exact nodup)
  · intro x
    constructor
    · intro h
      obtain ⟨hx, hk⟩ := List.mem_filter.mp h
      rw [← keys] at hk
      obtain ⟨y, hy, same⟩ := List.mem_map.mp (of_decide_eq_true hk)
      rwa [← List.inj_on_of_nodup_map distinct (mem_of_mem_select hy) hx same]
    · intro h
      refine List.mem_filter.mpr ⟨mem_of_mem_select h, decide_eq_true ?_⟩
      rw [← keys]
      exact List.mem_map_of_mem h

theorem reorder_perm (order : List UInt64) (xs : List β) : (reorder key order xs).Perm xs := by
  induction order generalizing xs with
  | nil => exact .refl _
  | cons u order ih =>
      apply (List.Perm.append_left _ (ih _)).trans
      simpa using List.filter_append_perm (key · = u) xs

/-- Elements with distinct keys come into the order of their keys. -/
theorem reorder_eq (perm : xs.Perm ys) (distinct : (ys.map key).Nodup) :
    reorder key (ys.map key) xs = ys := by
  induction ys generalizing xs with
  | nil => simpa [reorder] using perm
  | cons y ys ih =>
      obtain ⟨only, distinct⟩ := List.nodup_cons.mp distinct
      have others : ∀ z ∈ ys, key z ≠ key y := by
        intro z hz same
        exact only (same ▸ List.mem_map_of_mem hz)
      have first : xs.filter (key · = key y) = [y] := by
        have kept : ys.filter (key · = key y) = [] :=
          List.filter_eq_nil_iff.mpr (by simpa using others)
        have := perm.filter (key · = key y)
        rw [List.filter_cons_of_pos (by simp), kept] at this
        exact this.eq_singleton
      have rest : (xs.filter (key · ≠ key y)).Perm ys := by
        have kept : ys.filter (key · ≠ key y) = ys :=
          List.filter_eq_self.mpr (by simpa using others)
        have := perm.filter (key · ≠ key y)
        rwa [List.filter_cons_of_neg (by simp), kept] at this
      rw [List.map_cons, reorder, first, ih rest distinct, List.singleton_append]

end Keys

end SchemaLedger.Merge
