import Mathlib.Data.List.Forall2
import Pageloom.Helper

/-!
# Helpers that answer by token and page

A helper from outside may answer by what it was asked before. A helper is *stateless* when what it
remembers does not matter to its answers, nor to which tokens it claims. Being asked changes a
helper only in what it remembers, so a list of stateless helpers gives the same answers however
often it was asked.

## Main definitions

* `Helper.recalling`: a helper with other earlier calls, `Helper.made` without any;
  `Helper.Recalls`: two lists of helpers that differ only in their earlier calls.
* `Helper.IsStateless`: claims and answers do not depend on the earlier calls.
* `Helper.reply?`: what a helper has to say about a token, if it claims it and does not pass.

## Main results

* `Helper.ask_fst`: the answer of several helpers is the first reply of one of them.
* `Helper.recalls_ask`: being asked leaves a list of helpers as it was, up to earlier calls.
* `Helper.Recalls.findSome?_reply?`: stateless helpers reply the same after any calls.
-/

namespace Pageloom.Helper

variable {h : Helper} {hs hs' : List Helper} {token : Text} {page : Page}

/-- The helper with other earlier calls. -/
def recalling (calls : List Call) : Helper → Helper
  | .custom claimed answer _ => .custom claimed answer calls
  | h => h

/-- The helper as it was made, before it was asked anything. -/
def made (h : Helper) : Helper := h.recalling []

/-- What a helper claims and answers does not depend on what it was asked before. -/
structure IsStateless (h : Helper) : Prop where
  claims : ∀ calls token, (h.recalling calls).claims token = h.claims token
  answers : ∀ calls token page,
    ((h.recalling calls).resolve token page).1 = (h.resolve token page).1

/-- What a helper has to say about a token: nothing if it does not claim it or passes. -/
def reply? (token : Text) (page : Page) (h : Helper) : Option (Except Failure Text) :=
  match h.claims token with
  | .error e => some (.error e)
  | .ok false => none
  | .ok true =>
    match (h.resolve token page).1 with
    | .ok none => none
    | .ok (some text) => some (.ok text)
    | .error e => some (.error e)

/-- The second list has the helpers of the first, with other earlier calls. -/
def Recalls : List Helper → List Helper → Prop :=
  List.Forall₂ fun h h' => ∃ calls, h' = h.recalling calls

/-! ### One helper -/

@[simp] theorem recalling_recalling (h : Helper) (calls calls' : List Call) :
    (h.recalling calls).recalling calls' = h.recalling calls' := by
  cases h <;> rfl

theorem exists_recalling_eq (h : Helper) : ∃ calls, h = h.recalling calls := by
  cases h with
  | custom claimed answer earlier => exact ⟨earlier, rfl⟩
  | _ => exact ⟨[], rfl⟩

/-- Two helpers that were made alike differ only in what they remember. -/
theorem made_eq_iff {h' : Helper} : h'.made = h.made ↔ ∃ calls, h' = h.recalling calls := by
  constructor
  · intro hmade
    obtain ⟨calls, hcalls⟩ := exists_recalling_eq h'
    refine ⟨calls, ?_⟩
    rw [hcalls, ← recalling_recalling h' [], ← recalling_recalling h [], ← made, hmade, made]
  · rintro ⟨calls, rfl⟩
    exact recalling_recalling h calls []

/-- Being asked changes nothing but what a helper remembers. -/
theorem exists_resolve_snd (h : Helper) (token : Text) (page : Page) :
    ∃ calls, (h.resolve token page).2 = h.recalling calls := by
  cases h with
  | custom claimed answer earlier => exact ⟨⟨token, page⟩ :: earlier, rfl⟩
  | data values => exact ⟨[], by simp only [resolve]; split <;> rfl⟩
  | _ => exact ⟨[], rfl⟩

/-- A helper that remembers nothing is stateless. -/
theorem IsStateless.of_recalling (hh : ∀ calls, h.recalling calls = h) : h.IsStateless where
  claims calls token := by rw [hh calls]
  answers calls token page := by rw [hh calls]

theorem IsStateless.reply?_recalling (hh : h.IsStateless) (calls : List Call) :
    (h.recalling calls).reply? token page = h.reply? token page := by
  simp only [reply?, hh.claims calls token, hh.answers calls token page]

/-! ### The helpers for front matter and for the name -/

theorem reply?_frontMatter : frontMatter.reply? token page =
    (if token = nameToken then none else inFrontMatter token page.frontMatter).map .ok := by
  by_cases htoken : token = nameToken
  · simp [reply?, claims, htoken]
  · cases hvalue : inFrontMatter token page.frontMatter <;>
      simp [reply?, claims, resolve, htoken, hvalue]

theorem reply?_name : name.reply? token page =
    (if token = nameToken then page.name else none).map .ok := by
  by_cases htoken : token = nameToken
  · cases hname : page.name <;> simp [reply?, claims, resolve, htoken, hname]
  · simp [reply?, claims, htoken]

/-! ### Several helpers -/

theorem recalls_refl (hs : List Helper) : Recalls hs hs :=
  List.forall₂_same.mpr fun h _ => h.exists_recalling_eq

theorem Recalls.trans {hs'' : List Helper} (h₁ : Recalls hs hs') (h₂ : Recalls hs' hs'') :
    Recalls hs hs'' := by
  induction h₁ generalizing hs'' with
  | nil => exact h₂
  | cons hd _ ih =>
    obtain ⟨calls, rfl⟩ := hd
    cases h₂ with
    | cons hd' tl' =>
      obtain ⟨calls', rfl⟩ := hd'
      exact .cons ⟨calls', recalling_recalling _ _ _⟩ (ih tl')

/-- Lists of helpers that were made alike differ only in what their helpers remember. -/
theorem recalls_iff_map_made : Recalls hs hs' ↔ hs'.map made = hs.map made := by
  rw [eq_comm, ← List.forall₂_eq_eq_eq, List.forall₂_map_left_iff, List.forall₂_map_right_iff]
  simp only [Recalls, ← made_eq_iff, eq_comm]

/-- The answer of several helpers is the first reply of one of them. No statelessness is needed,
since each helper is asked at most once. -/
theorem ask_fst (token : Text) (page : Page) (hs : List Helper) :
    (ask token page hs).1 =
      match hs.findSome? (reply? token page) with
      | none => .ok none
      | some (.ok text) => .ok (some text)
      | some (.error e) => .error e := by
  induction hs with
  | nil => rfl
  | cons h hs ih =>
    rcases hc : h.claims token with e | _ | _
    · simp [ask, reply?, hc]
    · simp [ask, reply?, hc, ih]
    · rcases hr : h.resolve token page with ⟨_ | _ | text, h'⟩ <;>
        simp [ask, reply?, hc, hr, ih]

theorem recalls_ask (token : Text) (page : Page) (hs : List Helper) :
    Recalls hs (ask token page hs).2 := by
  induction hs with
  | nil => exact .nil
  | cons h hs ih =>
    rcases hc : h.claims token with e | _ | _ <;> simp only [ask, hc]
    · exact recalls_refl (h :: hs)
    · exact .cons h.exists_recalling_eq ih
    · obtain ⟨calls, hcalls⟩ := h.exists_resolve_snd token page
      rcases hr : h.resolve token page with ⟨_ | _ | text, h'⟩ <;> rw [hr] at hcalls <;>
        simp only
      · exact .cons ⟨calls, hcalls⟩ (recalls_refl hs)
      · exact .cons ⟨calls, hcalls⟩ ih
      · exact .cons ⟨calls, hcalls⟩ (recalls_refl hs)

/-- Stateless helpers reply the same after any calls. -/
theorem Recalls.findSome?_reply? (hr : Recalls hs hs') (hs_stateless : ∀ h ∈ hs, h.IsStateless) :
    hs'.findSome? (reply? token page) = hs.findSome? (reply? token page) := by
  induction hr with
  | nil => rfl
  | @cons h _ hs _ hd _ ih =>
    obtain ⟨calls, rfl⟩ := hd
    rw [List.findSome?_cons, List.findSome?_cons,
      (hs_stateless h List.mem_cons_self).reply?_recalling calls,
      ih fun g hg => hs_stateless g (List.mem_cons_of_mem h hg)]

end Pageloom.Helper
