import Mustache.Proofs.Dict
import Mustache.Proofs.Hosts

/-!
This module contains the values that a template can come across. The main statement is that lookups in a scope do not
lead out of a set of values that members and elements do not lead out of.
-/

namespace Mustache

variable {σ α β : Type}

/--
Whatever the state of the host is, the answer is one of those.
-/
structure Answers (P : α → Prop) (x : StateM σ α) : Prop where
  run (state : σ) : P (x.run state).1

namespace Answers

variable {P : α → Prop} {Q : β → Prop} {x : StateM σ α} {f : α → StateM σ β}

theorem pure {a : α} (h : P a) : Answers P (pure a : StateM σ α) :=
  ⟨fun _ => h⟩

theorem bind (hx : Answers P x) (hf : ∀ a, P a → Answers Q (f a)) : Answers Q (x >>= f) :=
  ⟨fun state => (hf _ (hx.run state)).run _⟩

theorem pure_none : Answers (∀ a ∈ ·, P a) (Pure.pure none : StateM σ (Option α)) := by
  apply pure
  simp

theorem pure_some {a : α} (h : P a) : Answers (∀ a ∈ ·, P a) (Pure.pure (some a) : StateM σ (Option α)) := by
  apply pure
  simpa using h

end Answers

def Value.IsPlain : Value → Prop
  | .null | .bool _ | .int _ | .float _ | .string _ => True
  | .date _ | .array _ | .map _ | .object _ | .lambda _ => False

theorem Value.isPlain_ofNat (n : Nat) : (Value.ofNat n).IsPlain := by
  unfold ofNat
  split <;> trivial

/--
Values that a render does not leave: the members and elements of each of them are among them.
-/
structure Horizon (host : Host σ) where
  resolvers : List (Resolver σ)
  Values : Value → Prop
  plain {value : Value} : value.IsPlain → Values value
  member {data : Value} {resolver : Resolver σ} (name : String) :
    resolver ∈ resolvers → Values data → Answers (∀ value ∈ ·, Values value) (resolver data name)
  element {data : Value} : Values data → Answers (∀ items ∈ ·, ∀ item ∈ items, Values item) (host.elements? data)

/--
A value that lookups lead to, one after another, from some values that are given.
-/
inductive Reached (host : Host σ) (resolvers : List (Resolver σ)) (given : Value → Prop) : Value → Prop where
  | given {value : Value} : given value → Reached host resolvers given value
  | plain {value : Value} : value.IsPlain → Reached host resolvers given value
  | member {data value : Value} {resolver : Resolver σ} {name : String} {state : σ} : resolver ∈ resolvers →
    Reached host resolvers given data → ((resolver data name).run state).1 = some value →
    Reached host resolvers given value
  | element {data item : Value} {items : List Value} {state : σ} : Reached host resolvers given data →
    ((host.elements? data).run state).1 = some items → item ∈ items → Reached host resolvers given item

namespace Horizon

variable {host : Host σ}

def all (host : Host σ) (resolvers : List (Resolver σ)) : Horizon host where
  resolvers := resolvers
  Values _ := True
  plain _ := trivial
  member _ _ _ := ⟨fun _ _ _ => trivial⟩
  element _ := ⟨fun _ _ _ _ _ => trivial⟩

def reached (host : Host σ) (resolvers : List (Resolver σ)) (given : Value → Prop) : Horizon host where
  resolvers := resolvers
  Values := Reached host resolvers given
  plain := .plain
  member _ hresolver hdata := ⟨fun _ _ h => .member hresolver hdata h⟩
  element hdata := ⟨fun _ _ h _ hitem => .element hdata h hitem⟩

theorem values_of_reached (horizon : Horizon host) {given : Value → Prop}
    (hgiven : ∀ value, given value → horizon.Values value) {value : Value}
    (h : Reached host horizon.resolvers given value) : horizon.Values value := by
  induction h with
  | given h => exact hgiven _ h
  | plain h => exact horizon.plain h
  | member hresolver _ h ih => exact (horizon.member _ hresolver ih).run _ _ h
  | element _ h hitem ih => exact (horizon.element ih).run _ _ h _ hitem

end Horizon

namespace Scope

variable {scope : Scope σ}

theorem parent?_resolvers {outer : Scope σ} (h : scope.parent? = some outer) : outer.resolvers = scope.resolvers := by
  unfold parent? at h
  split at h
  . cases h
  . cases h
    rfl

theorem ancestor?_resolvers {outer : Scope σ} {n : Nat} (h : scope.ancestor? n = some outer) :
    outer.resolvers = scope.resolvers := by
  induction n generalizing scope with
  | zero =>
    cases h
    rfl
  | succ n ih =>
    obtain ⟨parent, hparent, houter⟩ := Option.bind_eq_some_iff.1 h
    rw [ih houter, parent?_resolvers hparent]

end Scope

def Scope.Holds (scope : Scope σ) (value : Value) : Prop :=
  ∃ frame ∈ scope.frame :: scope.outer, value = frame.data ∨ ∃ name, (name, value) ∈ frame.locals

structure Scope.Within {host : Host σ} (scope : Scope σ) (horizon : Horizon host) : Prop where
  resolvers_eq : scope.resolvers = horizon.resolvers
  holds {value : Value} : scope.Holds value → horizon.Values value

section

variable {host : Host σ} {horizon : Horizon host} {scope : Scope σ}

namespace Scope.Within

theorem reached (scope : Scope σ) : scope.Within (.reached host scope.resolvers scope.Holds) :=
  ⟨rfl, .given⟩

theorem data (h : scope.Within horizon) : horizon.Values scope.data :=
  h.holds ⟨scope.frame, List.mem_cons_self, .inl rfl⟩

theorem root (horizon : Horizon host) {data : Value} (hdata : horizon.Values data) :
    Within { frame := ⟨data, ∅⟩, resolvers := horizon.resolvers } horizon where
  resolvers_eq := rfl
  holds := by
    rintro value ⟨frame, hframe, hvalue⟩
    obtain rfl := List.mem_singleton.1 hframe
    rcases hvalue with rfl | ⟨name, hlocal⟩
    . exact hdata
    . cases hlocal

theorem child (h : scope.Within horizon) {data : Value} (hdata : horizon.Values data) {locals : Dict Value}
    (hlocals : ∀ entry ∈ locals, horizon.Values entry.2) : (scope.child data locals).Within horizon where
  resolvers_eq := h.resolvers_eq
  holds := by
    rintro value ⟨frame, hframe, hvalue⟩
    rcases List.mem_cons.1 hframe with rfl | hframe
    . rcases hvalue with rfl | ⟨name, hvalue⟩
      . exact hdata
      . exact hlocals _ hvalue
    . exact h.holds ⟨frame, hframe, hvalue⟩

theorem parent? (h : scope.Within horizon) {outer : Scope σ} (houter : scope.parent? = some outer) :
    outer.Within horizon where
  resolvers_eq := (parent?_resolvers houter).trans h.resolvers_eq
  holds := by
    rintro value ⟨frame, hframe, hvalue⟩
    refine h.holds ⟨frame, List.mem_cons_of_mem _ ?_, hvalue⟩
    unfold Scope.parent? at houter
    split at houter
    . cases houter
    next hframes =>
      cases houter
      rwa [hframes]

theorem ancestor? (h : scope.Within horizon) {n : Nat} {outer : Scope σ} (houter : scope.ancestor? n = some outer) :
    outer.Within horizon := by
  induction n generalizing scope with
  | zero =>
    cases houter
    exact h
  | succ n ih =>
    obtain ⟨parent, hparent, houter⟩ := Option.bind_eq_some_iff.1 houter
    exact ih (h.parent? hparent) houter

end Scope.Within

namespace Scope

theorem resolve_within {data : Value} (hdata : horizon.Values data) (name : String) {asked : List (Resolver σ)}
    (hasked : asked ⊆ horizon.resolvers) : Answers (∀ value ∈ ·, horizon.Values value) (resolve data name asked) := by
  induction asked with
  | nil => exact .pure_none
  | cons resolver rest ih =>
    unfold resolve
    apply Answers.bind (horizon.member name (hasked List.mem_cons_self) hdata)
    intro found hfound
    cases found with
    | some value => exact .pure hfound
    | none => exact ih fun r hr => hasked (List.mem_cons_of_mem _ hr)

theorem follow_within {data : Value} (hdata : horizon.Values data) (names : List String) :
    Answers (∀ value ∈ ·, horizon.Values value) (follow horizon.resolvers data names) := by
  induction names generalizing data with
  | nil => exact .pure_some hdata
  | cons name names ih =>
    unfold follow
    apply Answers.bind (resolve_within hdata name (List.Subset.refl _))
    intro found hfound
    cases found with
    | some value => exact ih (hfound value rfl)
    | none => exact .pure_none

theorem lookupIn_within (name : String) {frames : List Frame}
    (hframes : ∀ frame ∈ frames, horizon.Values frame.data ∧ ∀ entry ∈ frame.locals, horizon.Values entry.2) :
    Answers (∀ value ∈ ·, horizon.Values value) (lookupIn horizon.resolvers name frames) := by
  induction frames with
  | nil => exact .pure_none
  | cons frame frames ih =>
    obtain ⟨⟨hdata, hlocals⟩, hframes⟩ := List.forall_mem_cons.1 hframes
    unfold lookupIn
    split
    next value hlocal => exact .pure_some (hlocals _ (Dict.mem_of_get? hlocal))
    next =>
      apply Answers.bind (resolve_within hdata name (List.Subset.refl _))
      intro found hfound
      cases found with
      | some value => exact .pure hfound
      | none => exact ih hframes

variable (h : scope.Within horizon)
include h

theorem begin_within (start : PathStart) : Answers (∀ value ∈ ·, horizon.Values value) (scope.begin start) := by
  cases start with
  | current => exact .pure_some h.data
  | name name =>
    change Answers _ (lookupIn scope.resolvers name _)
    rw [h.resolvers_eq]
    apply lookupIn_within
    intro frame hframe
    constructor
    . exact h.holds ⟨frame, hframe, .inl rfl⟩
    . intro entry hentry
      exact h.holds ⟨frame, hframe, .inr ⟨entry.1, hentry⟩⟩

theorem find_within (path : Path) : Answers (∀ value ∈ ·, horizon.Values value) (scope.find path) := by
  unfold find
  split
  . exact .pure_none
  next outer houter =>
    have hscope := h.ancestor? houter
    apply Answers.bind (begin_within hscope path.start)
    intro found hfound
    cases found with
    | none => exact .pure_none
    | some value =>
      rw [hscope.resolvers_eq]
      exact follow_within (hfound value rfl) path.members

theorem get_within (path : String) : Answers (∀ value ∈ ·, horizon.Values value) (scope.get path) :=
  find_within h _

theorem evaluate_within (param : Param) : Answers horizon.Values (scope.evaluate param) := by
  cases param with
  | path path =>
    apply Answers.bind (get_within h path)
    intro found hfound
    apply Answers.pure
    cases found with
    | some value => exact hfound value rfl
    | none => exact horizon.plain trivial
  | _ => exact .pure (horizon.plain trivial)

theorem evaluateParams_within (params : List Param) :
    Answers (∀ value ∈ ·, horizon.Values value) (scope.evaluateParams params) := by
  induction params with
  | nil => exact .pure (List.forall_mem_nil _)
  | cons param params ih =>
    apply Answers.bind (evaluate_within h param)
    intro value hvalue
    apply Answers.bind ih
    intro values hvalues
    exact .pure (List.forall_mem_cons.2 ⟨hvalue, hvalues⟩)

end Scope

end

theorem BuiltIn.elementLocals_plain {index count : Nat} : ∀ entry ∈ elementLocals index count, entry.2.IsPlain := by
  intro entry hentry
  have hmem := Dict.mem_of_mem_ofList hentry
  simp only [List.mem_cons, List.not_mem_nil, or_false] at hmem
  rcases hmem with rfl | rfl | rfl
  . exact Value.isPlain_ofNat index
  . trivial
  . trivial

mutual

def Value.LambdaFree (host : Host σ) : Value → Prop
  | .lambda _ => False
  | .object id => host.objectCallable? id = none
  | .array items => ItemsLambdaFree host items
  | .map entries => EntriesLambdaFree host entries
  | _ => True

def Value.ItemsLambdaFree (host : Host σ) : List Value → Prop
  | [] => True
  | item :: items => item.LambdaFree host ∧ ItemsLambdaFree host items

def Value.EntriesLambdaFree (host : Host σ) : List (String × Value) → Prop
  | [] => True
  | (_, value) :: entries => value.LambdaFree host ∧ EntriesLambdaFree host entries

end

namespace Value

variable {host : Host σ}

theorem itemsLambdaFree_iff {items : List Value} :
    ItemsLambdaFree host items ↔ ∀ item ∈ items, item.LambdaFree host := by
  induction items with
  | nil => simp [ItemsLambdaFree]
  | cons item items ih => simp [ItemsLambdaFree, ih]

theorem entriesLambdaFree_iff {entries : List (String × Value)} :
    EntriesLambdaFree host entries ↔ ∀ entry ∈ entries, entry.2.LambdaFree host := by
  induction entries with
  | nil => simp [EntriesLambdaFree]
  | cons entry entries ih => simp [EntriesLambdaFree, ih]

theorem IsPlain.lambdaFree {value : Value} (h : value.IsPlain) : value.LambdaFree host := by
  cases value <;> trivial

theorem LambdaFree.callable? {value : Value} (h : value.LambdaFree host) : host.callable? value = none := by
  cases value with
  | lambda id => cases h
  | object id => exact h
  | _ => rfl

end Value

/--
Objects that cannot be called do not lead to values that can.
-/
structure Host.LambdaFree (host : Host σ) : Prop where
  member {id : Nat} (name : String) :
    host.objectCallable? id = none → Answers (∀ value ∈ ·, value.LambdaFree host) (host.member id name)
  elements {id : Nat} : host.objectCallable? id = none →
    Answers (∀ items ∈ ·, ∀ item ∈ items, item.LambdaFree host) (host.elements id)

namespace Host.LambdaFree

variable {host : Host σ}

theorem elements? (h : host.LambdaFree) {data : Value} (hdata : data.LambdaFree host) :
    Answers (∀ items ∈ ·, ∀ item ∈ items, item.LambdaFree host) (host.elements? data) := by
  cases data with
  | array items => exact .pure_some (Value.itemsLambdaFree_iff.1 hdata)
  | object id => exact h.elements hdata
  | _ => exact .pure_none

theorem builtIn (h : host.LambdaFree) {data : Value} {resolver : Resolver σ} (name : String)
    (hresolver : resolver ∈ Resolver.builtIn host) (hdata : data.LambdaFree host) :
    Answers (∀ value ∈ ·, value.LambdaFree host) (resolver data name) := by
  simp only [Resolver.builtIn, List.mem_cons, List.not_mem_nil, or_false] at hresolver
  rcases hresolver with rfl | rfl | rfl
  . cases data with
    | map entries =>
      apply Answers.pure
      intro value hvalue
      exact Value.entriesLambdaFree_iff.1 hdata _ (Dict.mem_of_lookup hvalue)
    | _ => exact .pure_none
  . apply Answers.bind (h.elements? hdata)
    intro found hfound
    cases found with
    | none => exact .pure_none
    | some items =>
      apply Answers.pure
      intro value hvalue
      unfold Resolver.element? at hvalue
      split at hvalue
      . cases hvalue
        exact (Value.isPlain_ofNat _).lambdaFree
      . obtain ⟨n, -, hn⟩ := Option.bind_eq_some_iff.1 hvalue
        exact hfound items rfl value (List.mem_of_getElem? hn)
  . cases data with
    | object id => exact h.member name hdata
    | _ => exact .pure_none

end Host.LambdaFree

namespace Horizon

variable {host : Host σ}

def lambdaFree (h : host.LambdaFree) : Horizon host where
  resolvers := Resolver.builtIn host
  Values := Value.LambdaFree host
  plain hplain := hplain.lambdaFree
  member := h.builtIn
  element := h.elements?

theorem callable?_of_reached (h : host.LambdaFree) {given : Value → Prop}
    (hgiven : ∀ value, given value → value.LambdaFree host) {value : Value}
    (hvalue : Reached host (Resolver.builtIn host) given value) : host.callable? value = none :=
  ((lambdaFree h).values_of_reached hgiven hvalue).callable?

end Horizon

theorem Host.inert_lambdaFree : Host.inert.LambdaFree where
  member _ _ := .pure_none
  elements _ := .pure_none

end Mustache
