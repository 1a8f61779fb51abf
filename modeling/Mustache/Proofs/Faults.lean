import Mustache.Proofs.Grammar
import Mustache.Proofs.Scanning

/-!
This module contains what can go wrong when a source is read. The main statement is that a source is only ever refused
for a fault at one of its places: no section of it is without a name or gets a second body.
-/

namespace Mustache

def SyntaxError.Placed (e : SyntaxError) : Prop :=
  ∃ position fault, e = .malformed position fault

def SyntaxError.IsAt (e : SyntaxError) (position : Position) : Prop :=
  ∃ fault, e = .malformed position fault

namespace Source

namespace Builder

theorem faulty_at {α : Type} {tag : Tag} {x : Except Fault α} {e : SyntaxError}
    (h : addTag.faulty tag x = .error e) : e.IsAt tag.position := by
  cases x with
  | error fault =>
    cases h
    exact ⟨fault, rfl⟩
  | ok value => cases h

theorem faulty_bind_at {tag : Tag} {x : Except Fault Call} {f : Call → Except SyntaxError Builder}
    {e : SyntaxError} (h : (addTag.faulty tag x >>= f) = .error e)
    (hf : ∀ call, x = .ok call → f call = .error e → e.IsAt tag.position) : e.IsAt tag.position := by
  cases x with
  | error fault =>
    cases h
    exact ⟨fault, rfl⟩
  | ok call => exact hf call rfl h

theorem Holds.close_eq {tokens : List Token} {root : Fragment} {s : OpenSection} {stack : List OpenSection}
    (h : Holds tokens ⟨root, s :: stack⟩) : ∃ block, s.close = .ok block := by
  cases h with
  | body => exact ⟨_, close_body ..⟩
  | inverse => exact ⟨_, close_inverse ..⟩

theorem Holds.closeSection_at {tokens : List Token} {b : Builder} (h : Holds tokens b) {position : Position}
    {name : String} {e : SyntaxError} (he : b.closeSection position name = .error e) : e.IsAt position := by
  obtain ⟨root, stack⟩ := b
  unfold closeSection at he
  split at he
  . cases he
    exact ⟨_, rfl⟩
  next s stack hstack =>
    dsimp only at hstack
    subst hstack
    split at he
    . obtain ⟨block, hblock⟩ := h.close_eq
      rw [hblock] at he
      cases he
    . cases he
      exact ⟨_, rfl⟩

theorem Holds.addTag_at {tokens : List Token} {b : Builder} (h : Holds tokens b) {tag : Tag} {e : SyntaxError}
    (he : b.addTag tag = .error e) : e.IsAt tag.position := by
  unfold addTag at he
  split at he
  . exact faulty_at he
  . split at he
    . cases he
    iterate 2
      next =>
        refine faulty_bind_at he fun call hcall he => ?_
        rw [openSection_eq b _ _ (readCall_name_ne hcall)] at he
        cases he
    . exact h.closeSection_at he
    . split at he
      . exact faulty_at he
      . cases he
    all_goals
      refine faulty_bind_at he fun _ _ he => ?_
      cases he

theorem Holds.add_at {tokens : List Token} {b : Builder} (h : Holds tokens b) {token : Token} {e : SyntaxError}
    (he : b.add token = .error e) : ∃ tag, token = .tag tag ∧ e.IsAt tag.position := by
  cases token with
  | text characters => cases he
  | tag tag => exact ⟨tag, rfl, h.addTag_at he⟩

theorem finish_placed {b : Builder} {e : SyntaxError} (h : b.finish = .error e) : e.Placed := by
  unfold finish at h
  split at h
  . cases h
  . cases h
    exact ⟨_, _, rfl⟩

end Builder

theorem parseTokens_placed {tokens : List Token} {fault : Option SyntaxError} {e : SyntaxError}
    (hfault : ∀ e ∈ fault, e.Placed) (h : parseTokens tokens fault = .error e) :
    e.Placed := by
  unfold parseTokens at h
  cases hb : tokens.foldlM Builder.add {} with
  | error e =>
    rw [hb] at h
    cases h
    obtain ⟨done, token, more, b, -, hdone, hadd⟩ := run_eq_error hb
    obtain ⟨tag, -, hat⟩ := (Builder.Holds.of_run hdone).add_at hadd
    exact ⟨tag.position, hat⟩
  | ok b =>
    rw [hb] at h
    cases fault with
    | none => exact Builder.finish_placed h
    | some fault =>
      cases h
      exact hfault _ rfl

end Source

open Source

/--
A source is only ever refused for a fault at one of its places.
-/
theorem parse_placed {source : String} {d : Delimiters} {e : SyntaxError} (h : parse source d = .error e) :
    e.Placed := by
  unfold parse at h
  split at h
  . refine parseTokens_placed (fun e he => ?_) h
    obtain ⟨last, fault, -, -, rfl⟩ := Scanner.yields_of_pieces_error he
    exact ⟨_, _, rfl⟩
  . cases h
    exact ⟨_, _, rfl⟩

end Mustache
