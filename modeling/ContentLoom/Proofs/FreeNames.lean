import ContentLoom.Naming.Claim
import ContentLoom.Proofs.NumeralText
import Mathlib.Data.Finset.Card
import Mathlib.Data.Nat.Find

/-!
# Free names

The search for a free name passes over the candidates that are taken.  All
candidates but the first are different, so after at most two more tries than
names are taken the search ends, with the first candidate that is free.
-/

namespace ContentLoom.Naming

/-! ### Candidates -/

theorem toList_toString (n : Nat) : (toString n).toList = Nat.toDigits 10 n := by
  change (String.ofList (Nat.toDigits 10 n)).toList = _
  rw [String.toList_ofList]

theorem candidate_succ_injective (short wide : String) :
    Function.Injective fun n => candidate short wide (n + 1) := by
  have hlength (n : Nat) : wide ≠ wide ++ "_" ++ toString n := by
    intro h
    have hchars := congrArg String.length h
    simp only [String.length_append] at hchars
    have hmark : "_".length = 1 := rfl
    omega
  intro m n h
  cases m with
  | zero =>
    cases n with
    | zero => rfl
    | succ n => exact absurd h (hlength (n + 2))
  | succ m =>
    cases n with
    | zero => exact absurd h.symm (hlength (m + 2))
    | succ n =>
      have hdigits : toString (m + 2) = toString (n + 2) := (String.append_right_inj _).1 h
      have hsame := congrArg (fun s => Json.Numeral.digitsValue s.toList) hdigits
      simp only [toList_toString, Json.Numeral.digitsValue_toDigits] at hsame
      omega

/-! ### The search -/

/-- The search from a candidate on: one whose name is taken is passed over, and the first whose
name is free ends the search, with its name taken as well.  Every candidate is one try. -/
inductive Search (short wide : String) (render : String → String) (taken : Finset String) :
    Nat → Nat → String → Finset String → Prop
  | free {i : Nat} (hfree : render (candidate short wide i) ∉ taken) :
      Search short wide render taken i 1 (render (candidate short wide i))
        (insert (render (candidate short wide i)) taken)
  | next {i tries : Nat} {name : String} {after : Finset String}
      (htaken : render (candidate short wide i) ∈ taken)
      (rest : Search short wide render taken (i + 1) tries name after) :
      Search short wide render taken i (tries + 1) name after

/-- The first candidate whose name is free. -/
structure FirstFree (short wide : String) (render : String → String) (taken : Finset String)
    (n : Nat) : Prop where
  free : render (candidate short wide n) ∉ taken
  earlier : ∀ i < n, render (candidate short wide i) ∈ taken

variable {short wide : String} {render : String → String} {taken : Finset String}

theorem FirstFree.unique {m n : Nat} (hm : FirstFree short wide render taken m)
    (hn : FirstFree short wide render taken n) : m = n := by
  rcases Nat.lt_trichotomy m n with hlt | rfl | hlt
  · exact absurd (hn.earlier m hlt) hm.free
  · rfl
  · exact absurd (hm.earlier n hlt) hn.free

theorem Search.unique {i tries tries' : Nat} {name name' : String} {after after' : Finset String}
    (h : Search short wide render taken i tries name after)
    (h' : Search short wide render taken i tries' name' after') :
    tries = tries' ∧ name = name' ∧ after = after' := by
  induction h generalizing tries' with
  | free hfree =>
    cases h' with
    | free => exact ⟨rfl, rfl, rfl⟩
    | next htaken => exact absurd htaken hfree
  | next htaken _ ih =>
    cases h' with
    | free hfree => exact absurd htaken hfree
    | next _ rest =>
      obtain ⟨htries, hname, hafter⟩ := ih rest
      exact ⟨congrArg (· + 1) htries, hname, hafter⟩

/-- Some candidates that are taken stand before the one that ends the search. -/
theorem search_past {i k : Nat} (hfree : render (candidate short wide (i + k)) ∉ taken)
    (hpast : ∀ j < k, render (candidate short wide (i + j)) ∈ taken) :
    Search short wide render taken i (k + 1) (render (candidate short wide (i + k)))
      (insert (render (candidate short wide (i + k))) taken) := by
  induction k generalizing i with
  | zero => exact .free hfree
  | succ k ih =>
    have hshift (j : Nat) : i + 1 + j = i + (j + 1) := by omega
    have hrest := @ih (i + 1)
    simp only [hshift] at hrest
    exact .next (hpast 0 (Nat.succ_pos k)) (hrest hfree fun j hj => hpast (j + 1) (by omega))

theorem FirstFree.search_iff {n : Nat} (h : FirstFree short wide render taken n) {tries : Nat}
    {name : String} {after : Finset String} :
    Search short wide render taken 0 tries name after ↔
      tries = n + 1 ∧ name = render (candidate short wide n) ∧ after = insert name taken := by
  have hsearch := @search_past short wide render taken 0 n
  simp only [Nat.zero_add] at hsearch
  constructor
  · intro hother
    obtain ⟨rfl, rfl, rfl⟩ := hother.unique (hsearch h.free h.earlier)
    exact ⟨rfl, rfl, rfl⟩
  · rintro ⟨rfl, rfl, rfl⟩
    exact hsearch h.free h.earlier

/-! ### The search ends -/

theorem exists_free (short wide : String) (hrender : Function.Injective render)
    (taken : Finset String) :
    ∃ n ≤ taken.card + 1, render (candidate short wide n) ∉ taken := by
  by_contra hnone
  -- the first candidate may be the second, and those from the second on differ
  let later := (Finset.range (taken.card + 1)).image fun i => render (candidate short wide (i + 1))
  have hdiffer : Function.Injective fun i => render (candidate short wide (i + 1)) :=
    hrender.comp (candidate_succ_injective short wide)
  have hcount : later.card = taken.card + 1 := by
    rw [Finset.card_image_of_injective _ hdiffer, Finset.card_range]
  have hsubset : later ⊆ taken := by
    intro name hname
    obtain ⟨i, hi, rfl⟩ := Finset.mem_image.1 hname
    by_contra hfree
    exact hnone ⟨i + 1, Finset.mem_range.1 hi, hfree⟩
  have hle := Finset.card_le_card hsubset
  omega

theorem exists_firstFree (short wide : String) (hrender : Function.Injective render)
    (taken : Finset String) :
    ∃ n ≤ taken.card + 1, FirstFree short wide render taken n := by
  have hfree := exists_free short wide hrender taken
  have hsome : ∃ n, render (candidate short wide n) ∉ taken :=
    hfree.imp fun _ h => h.2
  obtain ⟨m, hm, hmfree⟩ := hfree
  refine ⟨Nat.find hsome, (Nat.find_min' hsome hmfree).trans hm, Nat.find_spec hsome, ?_⟩
  exact fun i hi => not_not.1 (Nat.find_min hsome hi)

theorem FirstFree.claim_eq {taken : List String} {n : Nat}
    (h : FirstFree short wide render taken.toFinset n) (hn : n ≤ taken.toFinset.card + 1) :
    claim taken short wide render = render (candidate short wide n) := by
  have hle := List.toFinset_card_le taken
  have hfound : (List.range (taken.length + 2)).find?
      (fun i => !taken.contains (render (candidate short wide i))) = some n := by
    rw [List.find?_range_eq_some]
    refine ⟨?_, List.mem_range.2 (by omega), ?_⟩
    · simpa using h.free
    · intro i hi
      simpa using h.earlier i hi
  unfold claim
  simp only [hfound, Option.getD_some]

/-- What a claim gives, with the number of the candidate that it takes. -/
structure Claims (taken : List String) (short wide : String) (render : String → String)
    (n : Nat) : Prop where
  first : FirstFree short wide render taken.toFinset n
  name : claim taken short wide render = render (candidate short wide n)
  /-- The search ends after so many tries, and it takes this name and no other. -/
  search : ∀ tries name after, Search short wide render taken.toFinset 0 tries name after ↔
    tries = n + 1 ∧ name = claim taken short wide render ∧ after = insert name taken.toFinset
  tries_le : n + 1 ≤ taken.toFinset.card + 2

theorem exists_claims (taken : List String) (short wide : String)
    (hrender : Function.Injective render) : ∃ n, Claims taken short wide render n := by
  obtain ⟨n, hn, hfirst⟩ := exists_firstFree short wide hrender taken.toFinset
  have hname := hfirst.claim_eq hn
  refine ⟨n, hfirst, hname, fun tries name after => ?_, Nat.succ_le_succ hn⟩
  rw [hname]
  exact hfirst.search_iff

theorem claim_eq (taken : List String) (short wide : String) (render : String → String) :
    ∃ n, claim taken short wide render = render (candidate short wide n) := ⟨_, rfl⟩

theorem claim_not_mem (taken : List String) (short wide : String) {render : String → String}
    (hrender : Function.Injective render) : claim taken short wide render ∉ taken := by
  obtain ⟨n, hclaims⟩ := exists_claims taken short wide hrender
  rw [hclaims.name]
  simpa using hclaims.first.free

theorem claim_of_not_mem {taken : List String} {short : String} {render : String → String}
    (h : render short ∉ taken) (wide : String) : claim taken short wide render = render short := by
  have hfirst : FirstFree short wide render taken.toFinset 0 :=
    ⟨by simpa [candidate] using h, nofun⟩
  exact hfirst.claim_eq (Nat.zero_le _)

end ContentLoom.Naming
