import Mathlib.Data.List.Infix
import Mathlib.Data.List.Nodup
import Mathlib.Tactic.Lemma

/-!
# First occurrences of names

Of several items with one name the first counts. `withEarlier` shows each item of a list with the
names in front of it; `firsts` keeps the items whose name is neither taken from the start nor among
those names.
-/

namespace MiniJava

variable {δ : Type} {key : δ → String}

/-- The items of a list, each with the names of those before it. -/
def withEarlier (key : δ → String) (ds : List δ) : List (List String × δ) :=
  (ds.map key).inits.zip ds

/-- The items whose name is neither taken nor that of an earlier item. -/
def firsts (taken : List String) (key : δ → String) (ds : List δ) : List δ :=
  ((withEarlier key ds).filter fun x => key x.2 ∉ taken ++ x.1).map Prod.snd

lemma withEarlier_cons (d : δ) (ds : List δ) :
    withEarlier key (d :: ds) =
      ([], d) :: (withEarlier key ds).map fun x => (key d :: x.1, x.2) := by
  simp [withEarlier, List.zip_map_left]

lemma withEarlier_append (ds es : List δ) :
    withEarlier key (ds ++ es) =
      withEarlier key ds ++ (withEarlier key es).map fun x => (ds.map key ++ x.1, x.2) := by
  induction ds with
  | nil => simp [withEarlier]
  | cons d ds ih =>
    rw [List.cons_append, withEarlier_cons, ih, withEarlier_cons]
    simp [Function.comp_def]

lemma map_snd_withEarlier (ds : List δ) : (withEarlier key ds).map Prod.snd = ds := by
  rw [withEarlier, List.map_snd_zip]
  simp

lemma exists_split_of_mem_withEarlier {ds : List δ} {x : List String × δ}
    (hx : x ∈ withEarlier key ds) :
    ∃ before after, ds = before ++ x.2 :: after ∧ x.1 = before.map key := by
  induction ds generalizing x with
  | nil => cases hx
  | cons d ds ih =>
    rw [withEarlier_cons] at hx
    rcases List.mem_cons.1 hx with rfl | hx
    · exact ⟨[], ds, rfl, rfl⟩
    · obtain ⟨y, hy, rfl⟩ := List.mem_map.1 hx
      obtain ⟨before, after, hds, hearlier⟩ := ih hy
      exact ⟨d :: before, after, by simp [hds], by simp [hearlier]⟩

/-- A list of distinct names shows no item behind its own name. -/
lemma not_mem_earlier {taken : List String} {ds : List δ} (hnodup : (taken ++ ds.map key).Nodup)
    {x : List String × δ} (hx : x ∈ withEarlier key ds) : key x.2 ∉ taken ++ x.1 := by
  induction ds generalizing taken x with
  | nil => cases hx
  | cons d ds ih =>
    rw [withEarlier_cons] at hx
    rcases List.mem_cons.1 hx with rfl | hx
    · intro hmem
      exact (List.nodup_append.1 hnodup).2.2 _ (by simpa using hmem) _ (by simp) rfl
    · obtain ⟨y, hy, rfl⟩ := List.mem_map.1 hx
      have hnext : ((taken ++ [key d]) ++ ds.map key).Nodup := by simpa using hnodup
      simpa using ih hnext hy

lemma not_mem_taken_of_mem_firsts {taken : List String} {ds : List δ} {d : δ}
    (hd : d ∈ firsts taken key ds) : key d ∉ taken := by
  obtain ⟨x, hx, rfl⟩ := List.mem_map.1 hd
  have hfresh : key x.2 ∉ taken ++ x.1 := by simpa using (List.mem_filter.1 hx).2
  intro hmem
  exact hfresh (List.mem_append_left _ hmem)

/-- What is said of the first items only may be said of all, with nothing said of the others. -/
lemma flatMap_firsts {β : Type} {taken : List String} {ds : List δ}
    {f : List String × δ → List β} {g : δ → List β}
    (hf : ∀ x ∈ withEarlier key ds, f x = if key x.2 ∈ taken ++ x.1 then [] else g x.2) :
    (withEarlier key ds).flatMap f = (firsts taken key ds).flatMap g := by
  rw [firsts, List.flatMap_map]
  generalize withEarlier key ds = xs at hf
  induction xs with
  | nil => rfl
  | cons x xs ih =>
    obtain ⟨hx, hxs⟩ := List.forall_mem_cons.1 hf
    rw [List.flatMap_cons, List.filter_cons, hx, ih hxs]
    by_cases hmem : key x.2 ∈ taken ++ x.1 <;> simp_all

lemma flatMap_eq_flatMap_firsts {β : Type} {taken : List String} {ds : List δ} {f g : δ → List β}
    (hf : ∀ before d after, ds = before ++ d :: after →
      f d = if key d ∈ taken ++ before.map key then [] else g d) :
    ds.flatMap f = (firsts taken key ds).flatMap g := by
  have hall : (withEarlier key ds).flatMap (fun x => f x.2) = (firsts taken key ds).flatMap g := by
    apply flatMap_firsts
    intro x hx
    obtain ⟨before, after, hds, hnames⟩ := exists_split_of_mem_withEarlier hx
    rw [hf before x.2 after hds, hnames]
  have hshown : (withEarlier key ds).flatMap (fun x => f x.2) =
      ((withEarlier key ds).map Prod.snd).flatMap f := by rw [List.flatMap_map]
  rw [← hall, hshown, map_snd_withEarlier]

lemma firsts_nil (taken : List String) : firsts taken key [] = [] := rfl

lemma firsts_congr {s t : List String} (hst : ∀ x, x ∈ s ↔ x ∈ t) (ds : List δ) :
    firsts s key ds = firsts t key ds := by
  unfold firsts
  congr 1
  apply List.filter_congr
  intro x _
  simp [hst]

lemma firsts_cons (taken : List String) (d : δ) (ds : List δ) :
    firsts taken key (d :: ds) =
      if key d ∈ taken then firsts taken key ds else d :: firsts (taken ++ [key d]) key ds := by
  have htail : (((withEarlier key ds).map fun x => (key d :: x.1, x.2)).filter
      fun x => key x.2 ∉ taken ++ x.1).map Prod.snd = firsts (taken ++ [key d]) key ds := by
    simp [firsts, List.filter_map, Function.comp_def]
  rw [firsts, withEarlier_cons, List.filter_cons]
  by_cases hd : key d ∈ taken
  · have hsame : firsts (taken ++ [key d]) key ds = firsts taken key ds := by
      apply firsts_congr
      intro x
      constructor
      · intro hx
        rcases List.mem_append.1 hx with hx | hx
        · exact hx
        · exact List.mem_singleton.1 hx ▸ hd
      · exact List.mem_append_left _
    rw [if_neg (by simpa using hd), htail, hsame, if_pos hd]
  · rw [if_pos (by simpa using hd), List.map_cons, htail, if_neg hd]

lemma firsts_append (taken : List String) (ds es : List δ) :
    firsts taken key (ds ++ es) = firsts taken key ds ++ firsts (taken ++ ds.map key) key es := by
  induction ds generalizing taken with
  | nil => simp [firsts_nil]
  | cons d ds ih =>
    rw [List.cons_append, firsts_cons, firsts_cons]
    by_cases hd : key d ∈ taken
    · rw [if_pos hd, if_pos hd, ih]
      congr 1
      apply firsts_congr
      intro x
      by_cases hx : x = key d
      · simp [hx, hd]
      · simp [hx]
    · rw [if_neg hd, if_neg hd, ih, List.cons_append]
      simp

lemma firsts_of_nodup {taken : List String} {ds : List δ}
    (hnodup : (taken ++ ds.map key).Nodup) : firsts taken key ds = ds := by
  have hall : (withEarlier key ds).filter (fun x => key x.2 ∉ taken ++ x.1) =
      withEarlier key ds := by
    rw [List.filter_eq_self]
    intro x hx
    simpa using not_mem_earlier hnodup hx
  rw [firsts, hall, map_snd_withEarlier]

/-- A name that no item has may be taken as well. -/
lemma firsts_append_fresh {taken : List String} {name : String} {ds : List δ}
    (hname : name ∉ ds.map key) : firsts (taken ++ [name]) key ds = firsts taken key ds := by
  unfold firsts
  congr 1
  apply List.filter_congr
  intro x hx
  have hmem : x.2 ∈ (withEarlier key ds).map Prod.snd := List.mem_map_of_mem hx
  rw [map_snd_withEarlier] at hmem
  have hne : key x.2 ≠ name := fun heq => hname (heq ▸ List.mem_map_of_mem hmem)
  simp [hne]

lemma firsts_of_taken {taken : List String} {ds : List δ} (hall : ∀ d ∈ ds, key d ∈ taken) :
    firsts taken key ds = [] := by
  induction ds with
  | nil => rfl
  | cons d ds ih =>
    rw [firsts_cons, if_pos (hall d List.mem_cons_self)]
    exact ih fun e he => hall e (List.mem_cons_of_mem _ he)

/-- Taking the first items takes no other names than taking all of them. -/
lemma mem_append_firsts_iff (taken : List String) (ds : List δ) (x : String) :
    x ∈ taken ++ (firsts taken key ds).map key ↔ x ∈ taken ++ ds.map key := by
  induction ds generalizing taken with
  | nil => rfl
  | cons d ds ih =>
    rw [firsts_cons]
    by_cases hd : key d ∈ taken
    · rw [if_pos hd, ih]
      by_cases hx : x = key d
      · simp [hx, hd]
      · simp [hx]
    · have htail := ih (taken ++ [key d])
      rw [if_neg hd]
      simpa using htail

lemma firsts_sublist (taken : List String) (ds : List δ) : (firsts taken key ds).Sublist ds := by
  have hshown : (firsts taken key ds).Sublist ((withEarlier key ds).map Prod.snd) :=
    List.filter_sublist.map Prod.snd
  rwa [map_snd_withEarlier] at hshown

lemma mem_of_mem_firsts {taken : List String} {ds : List δ} {d : δ}
    (hd : d ∈ firsts taken key ds) : d ∈ ds :=
  (firsts_sublist taken ds).mem hd

lemma mem_firsts_of_fresh {taken : List String} {before : List δ} {d : δ}
    (hd : key d ∉ taken ++ before.map key) (after : List δ) :
    d ∈ firsts taken key (before ++ d :: after) := by
  rw [firsts_append, firsts_cons, if_neg hd]
  simp

/-- Items that can be told apart otherwise: one with a taken name is no first one. -/
lemma not_mem_firsts_of_taken {taken : List String} {before after : List δ} {d : δ}
    (hd : key d ∈ taken ++ before.map key) (hfresh : d ∉ before) :
    d ∉ firsts taken key (before ++ d :: after) := by
  rw [firsts_append, List.mem_append]
  rintro (hmem | hmem)
  · exact hfresh (mem_of_mem_firsts hmem)
  · exact not_mem_taken_of_mem_firsts hmem hd

/-- No two first items have the same name. -/
lemma nodup_append_firsts {taken : List String} (htaken : taken.Nodup) (ds : List δ) :
    (taken ++ (firsts taken key ds).map key).Nodup := by
  induction ds generalizing taken with
  | nil => simpa [firsts_nil] using htaken
  | cons d ds ih =>
    rw [firsts_cons]
    by_cases hd : key d ∈ taken
    · rw [if_pos hd]
      exact ih htaken
    · have hnext : (taken ++ [key d]).Nodup := by
        rw [List.nodup_append]
        refine ⟨htaken, by simp, ?_⟩
        intro x hx y hy heq
        rw [List.mem_singleton.1 hy] at heq
        exact hd (heq ▸ hx)
      rw [if_neg hd]
      simpa using ih hnext

lemma firsts_firsts {taken : List String} (htaken : taken.Nodup) (ds : List δ) :
    firsts taken key (firsts taken key ds) = firsts taken key ds :=
  firsts_of_nodup (nodup_append_firsts htaken ds)

section Renamed

variable {ε : Type} {key' : ε → String} {k : String → String} {r : δ → ε}

lemma withEarlier_map (hr : ∀ d, key' (r d) = k (key d)) (ds : List δ) :
    withEarlier key' (ds.map r) = (withEarlier key ds).map fun x => (x.1.map k, r x.2) := by
  induction ds with
  | nil => rfl
  | cons d ds ih =>
    rw [List.map_cons, withEarlier_cons, withEarlier_cons, ih]
    simp [hr, Function.comp_def]

lemma firsts_map (hk : Function.Injective k) (hr : ∀ d, key' (r d) = k (key d))
    (taken : List String) (ds : List δ) :
    firsts (taken.map k) key' (ds.map r) = (firsts taken key ds).map r := by
  have hfresh : ∀ x : List String × δ, (key' (r x.2) ∉ taken.map k ++ x.1.map k) ↔
      key x.2 ∉ taken ++ x.1 := by
    intro x
    rw [hr, ← List.map_append, List.mem_map_of_injective hk]
  simp only [firsts, withEarlier_map hr, List.filter_map, List.map_map, Function.comp_def, hfresh]

end Renamed

/-- Leaving out the items with taken names first makes no difference. -/
lemma firsts_filter (taken : List String) (ds : List δ) :
    firsts taken key ds = firsts [] key (ds.filter fun d => key d ∉ taken) := by
  have hgen : ∀ earlier, firsts (taken ++ earlier) key ds =
      firsts earlier key (ds.filter fun d => key d ∉ taken) := by
    induction ds with
    | nil => exact fun earlier => rfl
    | cons d ds ih =>
      intro earlier
      rw [firsts_cons]
      by_cases hd : key d ∈ taken
      · rw [if_pos (List.mem_append_left _ hd), List.filter_cons_of_neg (by simpa using hd), ih]
      · rw [List.filter_cons_of_pos (by simpa using hd), firsts_cons, List.append_assoc, ih, ih]
        simp [hd]
  simpa using hgen []

/-- Under each name stands the first item of that name, unless the name is taken. -/
lemma lookup_firsts {α : Type} (value : δ → α) (taken : List String) (ds : List δ) (x : String) :
    ((firsts taken key ds).map fun d => (key d, value d)).lookup x =
      if x ∈ taken then none else (ds.find? fun d => key d = x).map value := by
  induction ds generalizing taken with
  | nil => simp [firsts_nil]
  | cons d ds ih =>
    rw [firsts_cons]
    by_cases hx : key d = x
    · subst hx
      by_cases hd : key d ∈ taken
      · rw [if_pos hd, if_pos hd, ih, if_pos hd]
      · simp [hd]
    · have hne : (x == key d) = false := by simpa using Ne.symm hx
      have hfind : (d :: ds).find? (fun d => key d = x) = ds.find? fun d => key d = x := by
        simp [hx]
      by_cases hd : key d ∈ taken
      · rw [if_pos hd, ih, hfind]
      · rw [if_neg hd, List.map_cons, List.lookup_cons, hne, ih, hfind]
        simp [Ne.symm hx]

end MiniJava
