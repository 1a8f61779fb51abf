import Mathlib.Data.List.Forall2
import Mustache.Proofs.Paths
import Mustache.Proofs.Reach
import Mustache.Proofs.Sections

/-!
This module contains what is found in a scope. The main statements are that a name stands for what the nearest frame
knows under it, and that a path which is put together leads on from where its parts lead.
-/

namespace Mustache

variable {σ : Type}

def Resolver.Computes (resolver : Resolver σ) (answer : Value → String → Option Value) : Prop :=
  ∀ data name, Answers (· = answer data name) (resolver data name)

namespace Resolver

/--
What the resolvers of an engine answer without those that were added to it, if all objects always answer the same.
-/
def answers (members : Nat → String → Option Value) (elements : Nat → Option (List Value)) :
    List (Value → String → Option Value) :=
  [fun data name => match data with
    | .map entries => entries.lookup name
    | _ => none,
  fun data name => match data with
    | .array items => element? items name
    | .object id => (elements id).bind (element? · name)
    | _ => none,
  fun data name => match data with
    | .object id => members id name
    | _ => none]

theorem builtIn_computes {host : Host σ} {members : Nat → String → Option Value} {elements : Nat → Option (List Value)}
    (hmember : ∀ id name, Answers (· = members id name) (host.member id name))
    (helements : ∀ id, Answers (· = elements id) (host.elements id)) :
    List.Forall₂ Computes (builtIn host) (answers members elements) := by
  refine .cons (fun data name => ?_) (.cons (fun data name => ?_) (.cons (fun data name => ?_) .nil))
  . cases data <;> exact .pure rfl
  . unfold index
    cases data with
    | object id =>
      apply Answers.bind (helements id)
      intro found hfound
      dsimp only
      rw [← hfound]
      cases found <;> exact .pure rfl
    | _ => exact .pure rfl
  . cases data with
    | object id => exact hmember id name
    | _ => exact .pure rfl

end Resolver

/--
What a frame knows under a name: its local of that name if it has one, else the answer of the first resolver that has
one for its value. It may be null.
-/
inductive Frame.Knows (answers : List (Value → String → Option Value)) (frame : Frame) (name : String) :
    Value → Prop where
  | bound {value : Value} : frame.locals.get? name = some value → Knows answers frame name value
  | resolved {earlier later : List (Value → String → Option Value)} {answer : Value → String → Option Value}
      {value : Value} : frame.locals.get? name = none → answers = earlier ++ answer :: later →
    answer frame.data name = some value → (∀ other ∈ earlier, other frame.data name = none) →
    Knows answers frame name value

section

variable {answers : List (Value → String → Option Value)}

def Frame.known? (answers : List (Value → String → Option Value)) (frame : Frame) (name : String) : Option Value :=
  match frame.locals.get? name with
  | some value => some value
  | none => answers.findSome? (· frame.data name)

theorem Frame.known?_eq_some_iff {frame : Frame} {name : String} {value : Value} :
    frame.known? answers name = some value ↔ frame.Knows answers name value := by
  unfold known?
  constructor
  . intro h
    split at h
    next hlocal =>
      cases h
      exact .bound hlocal
    next hlocal =>
      obtain ⟨earlier, answer, later, hanswers, hanswer, hearlier⟩ := List.findSome?_eq_some_iff.1 h
      exact .resolved hlocal hanswers hanswer hearlier
  . intro h
    cases h with
    | bound hlocal => rw [hlocal]
    | resolved hlocal hanswers hanswer hearlier =>
      rw [hlocal]
      exact List.findSome?_eq_some_iff.2 ⟨_, _, _, hanswers, hanswer, hearlier⟩

theorem Frame.known?_eq_none_iff {frame : Frame} {name : String} :
    frame.known? answers name = none ↔ ∀ value, ¬frame.Knows answers name value := by
  simp only [← known?_eq_some_iff, Option.eq_none_iff_forall_ne_some]

namespace Scope

variable {resolvers : List (Resolver σ)} (h : List.Forall₂ Resolver.Computes resolvers answers)
include h

theorem resolve_answers (data : Value) (name : String) :
    Answers (· = answers.findSome? (· data name)) (resolve data name resolvers) := by
  induction h with
  | nil => exact .pure rfl
  | cons hresolver _ ih =>
    unfold resolve
    apply Answers.bind (hresolver data name)
    intro found hfound
    rw [List.findSome?_cons, ← hfound]
    cases found with
    | some value => exact .pure rfl
    | none => exact ih

theorem follow_answers (data : Value) (names : List String) :
    Answers (· = names.foldlM (fun value name => answers.findSome? (· value name)) data)
      (follow resolvers data names) := by
  induction names generalizing data with
  | nil => exact .pure rfl
  | cons name names ih =>
    unfold follow
    apply Answers.bind (resolve_answers h data name)
    intro found hfound
    rw [List.foldlM_cons, ← hfound]
    cases found with
    | some value => exact ih value
    | none => exact .pure rfl

theorem lookupIn_answers (name : String) (frames : List Frame) :
    Answers (· = frames.findSome? (·.known? answers name)) (lookupIn resolvers name frames) := by
  induction frames with
  | nil => exact .pure rfl
  | cons frame frames ih =>
    rw [List.findSome?_cons]
    cases hlocal : frame.locals.get? name with
    | some value =>
      have hknown : frame.known? answers name = some value := by rw [Frame.known?, hlocal]
      rw [lookupIn, hlocal, hknown]
      exact .pure rfl
    | none =>
      have hknown : frame.known? answers name = answers.findSome? (· frame.data name) := by rw [Frame.known?, hlocal]
      rw [lookupIn, hlocal, hknown]
      apply Answers.bind (resolve_answers h frame.data name)
      intro found hfound
      rw [← hfound]
      cases found with
      | some value => exact .pure rfl
      | none => exact ih

theorem get_name_answers {scope : Scope σ} (hresolvers : scope.resolvers = resolvers) {name : String}
    (hpoint : '.' ∉ name.toList) (hthis : name ≠ "this") :
    Answers (· = (scope.frame :: scope.outer).findSome? (·.known? answers name)) (scope.get name) := by
  rw [get, Path.ofString_name hpoint hthis]
  apply Answers.bind (lookupIn_answers (hresolvers ▸ h) name (scope.frame :: scope.outer))
  rintro found rfl
  split
  next hfound =>
    rw [hfound]
    exact .pure rfl
  next hfound =>
    rw [hfound]
    exact .pure rfl

end Scope

end

namespace Scope

theorem rootScope_resolvers {options : EngineOptions σ} {engine : Engine σ} (h : Engine.build options = .ok engine)
    (model : Value) :
    (engine.rootScope model).resolvers =
      options.resolvers ++ [Resolver.map, Resolver.index options.host, Resolver.object options.host] := by
  unfold Engine.build at h
  dsimp only at h
  split at h
  . split at h
    next name _ =>
      cases hlocale : Locale.parse name with
      | ok locale =>
        rw [hlocale] at h
        cases h
        rfl
      | error e =>
        rw [hlocale] at h
        cases h
    next =>
      cases h
      rfl
  . cases h

/--
A name stands for what the nearest frame that knows it knows under it, and for nothing if none does. So what a scope
knows hides all that the scopes around it know, and what it does not know is looked up around it. The resolvers of an
engine are those that were added to it, in their order, and behind them those for maps, sequences and objects.
-/
theorem get_nearest :
    (∀ {σ : Type} {options : EngineOptions σ} {engine : Engine σ}, Engine.build options = .ok engine → ∀ model,
      (engine.rootScope model).resolvers =
        options.resolvers ++ [Resolver.map, Resolver.index options.host, Resolver.object options.host]) ∧
    ∀ {σ : Type} {scope : Scope σ} {answers : List (Value → String → Option Value)},
      List.Forall₂ Resolver.Computes scope.resolvers answers → ∀ {name : String}, '.' ∉ name.toList → name ≠ "this" →
        (∀ state value, ((scope.get name).run state).1 = some value ↔
          ∃ nearer frame farther, scope.frame :: scope.outer = nearer ++ frame :: farther ∧
            frame.Knows answers name value ∧ ∀ other ∈ nearer, ∀ value, ¬other.Knows answers name value) ∧
        (∀ state, ((scope.get name).run state).1 = none ↔
          ∀ frame ∈ scope.frame :: scope.outer, ∀ value, ¬frame.Knows answers name value) ∧
        (∀ data locals value, Frame.Knows answers ⟨data, locals⟩ name value →
          ∀ state, (((scope.child data locals).get name).run state).1 = some value) ∧
        (∀ data locals, (∀ value, ¬Frame.Knows answers ⟨data, locals⟩ name value) →
          ∀ state later, (((scope.child data locals).get name).run state).1 = ((scope.get name).run later).1) := by
  refine ⟨rootScope_resolvers, ?_⟩
  intro σ scope answers hanswers name hpoint hthis
  have hget := (get_name_answers hanswers rfl hpoint hthis).run
  have hchild (data : Value) (locals : Dict Value) :=
    (get_name_answers hanswers (show (scope.child data locals).resolvers = _ from rfl) hpoint hthis).run
  refine ⟨fun state value => ?_, fun state => ?_, fun data locals value hknows state => ?_,
    fun data locals hknows state later => ?_⟩
  . rw [hget, List.findSome?_eq_some_iff]
    simp only [Frame.known?_eq_some_iff, Frame.known?_eq_none_iff]
  . rw [hget, List.findSome?_eq_none_iff]
    simp only [Frame.known?_eq_none_iff]
  . rw [hchild]
    change List.findSome? _ ((⟨data, locals⟩ : Frame) :: _) = _
    rw [List.findSome?_cons, Frame.known?_eq_some_iff.2 hknows]
  . rw [hchild, hget]
    change List.findSome? _ ((⟨data, locals⟩ : Frame) :: _) = _
    rw [List.findSome?_cons, Frame.known?_eq_none_iff.2 hknows]
    rfl

theorem get_nearest_null :
    let text : Resolver Unit := fun data _ => pure (data.string?.map fun _ => Value.null)
    let texts : Value → String → Option Value := fun data _ => data.string?.map fun _ => Value.null
    let answers := texts :: Resolver.answers (fun _ _ => none) (fun _ => none)
    let options : EngineOptions Unit := { host := .inert, resolvers := [text], calendar := .gregorian }
    let engine : Engine Unit := { Engine.inert with resolvers := text :: Resolver.builtIn .inert }
    let root := engine.rootScope (.map [("title", .bool true)])
    let scope := (root.child (.string "x")).child (.bool true)
    (Engine.build options = .ok engine ∧
        root.resolvers = [text, Resolver.map, Resolver.index .inert, Resolver.object .inert]) ∧
      List.Forall₂ Resolver.Computes scope.resolvers answers ∧ '.' ∉ "title".toList ∧ "title" ≠ "this" ∧
      (∀ value, ¬Frame.Knows answers { data := .bool true } "title" value) ∧
      Frame.Knows answers { data := .string "x" } "title" .null ∧
      ((scope.get "title").run ()).1 = some .null := by
  intro text texts answers options engine root scope
  obtain ⟨hbuild, hget⟩ := get_nearest
  have hengine : Engine.build options = .ok engine := by rfl
  have hanswers : List.Forall₂ Resolver.Computes scope.resolvers answers :=
    .cons (fun _ _ => .pure rfl) (Resolver.builtIn_computes (fun _ _ => .pure rfl) fun _ => .pure rfl)
  have hblind : ∀ value, ¬Frame.Knows answers { data := .bool true } "title" value := by
    rw [← Frame.known?_eq_none_iff]
    rfl
  have hknows : Frame.Knows answers { data := .string "x" } "title" .null :=
    .resolved rfl (show _ = [] ++ _ from rfl) rfl (by simp)
  refine ⟨⟨hengine, hbuild hengine _⟩, hanswers, by decide, by decide, hblind, hknows, ?_⟩
  obtain ⟨hfound, -⟩ := hget hanswers (show '.' ∉ "title".toList by decide) (by decide)
  exact (hfound () .null).2 ⟨[{ data := .bool true }], _, _, rfl, hknows, by simpa using hblind⟩

section

variable {scope : Scope σ}

def memberOf? (resolvers : List (Resolver σ)) (name : String) : Option Value → StateM σ (Option Value)
  | some value => resolve value name resolvers
  | none => return none

theorem follow_append (resolvers : List (Resolver σ)) (data : Value) (names : List String) (name : String) :
    follow resolvers data (names ++ [name]) = follow resolvers data names >>= memberOf? resolvers name := by
  induction names generalizing data with
  | nil =>
    refine Eq.trans (congrArg (resolve data name resolvers >>= ·) (funext fun found => ?_)) (bind_pure _)
    cases found <;> rfl
  | cons first names ih =>
    rw [List.cons_append]
    unfold follow
    rw [bind_assoc]
    congr 1
    funext found
    cases found with
    | some value => exact ih value
    | none => rfl

theorem find_append (path : Path) (name : String) :
    scope.find { path with members := path.members ++ [name] } =
      scope.find path >>= memberOf? scope.resolvers name := by
  unfold find
  cases houter : scope.ancestor? path.ups with
  | none => rfl
  | some outer =>
    rw [← ancestor?_resolvers houter]
    dsimp only
    rw [bind_assoc]
    congr 1
    funext found
    cases found with
    | some value => exact follow_append outer.resolvers value path.members name
    | none => rfl

theorem get_append {path name : String} (hne : path ≠ "") (hlast : ∀ c ∈ path.toList.getLast?, c ≠ '.' ∧ c ≠ '/')
    (hname : name ≠ "") (hpoint : '.' ∉ name.toList) :
    scope.get (path ++ "." ++ name) = scope.get path >>= memberOf? scope.resolvers name := by
  rw [get, Path.ofString_append hne hlast hname hpoint]
  exact find_append ..

theorem get_up (path : String) :
    scope.get ("../" ++ path) =
      match scope.parent? with
      | some outer => outer.get path
      | none => return none := by
  rw [get, Path.ofString_up]
  unfold find
  rw [ancestor?]
  cases scope.parent? <;> rfl

theorem get_ups (n : Nat) (path : String) :
    scope.get (String.join (List.replicate n "../") ++ path) =
      match (scope.frame :: scope.outer).drop n with
      | frame :: outer => get { scope with frame, outer } path
      | [] => return none := by
  induction n generalizing scope with
  | zero => rw [List.replicate_zero, String.join_nil, String.empty_append]; rfl
  | succ n ih =>
    rw [List.replicate_succ, String.join_cons, String.append_assoc, get_up]
    unfold parent?
    cases houter : scope.outer with
    | nil => simp
    | cons frame outer => exact ih

theorem get_member {start : String} (h : start ∈ ["this.", "./"]) (rest : String) :
    scope.get (start ++ rest) = follow scope.resolvers scope.data (Path.membersOf rest.toList) := by
  rw [get, Path.ofString_member h]
  rfl

end

/--
A name behind a path is asked of what the path leads to and of nothing else, and each `../` in front of a path goes out
one scope. What is looked up behind `this.` or `./` depends on nothing but the value of the scope and the resolvers.
-/
theorem get_composed (scope : Scope σ) :
    (∀ path name : String, path ≠ "" → (∀ c ∈ path.toList.getLast?, c ≠ '.' ∧ c ≠ '/') → name ≠ "" →
      '.' ∉ name.toList →
      scope.get (path ++ "." ++ name) = do
        match ← scope.get path with
        | some value => resolve value name scope.resolvers
        | none => return none) ∧
    (∀ n path, scope.get (String.join (List.replicate n "../") ++ path) =
      match (scope.frame :: scope.outer).drop n with
      | frame :: outer => get { scope with frame, outer } path
      | [] => return none) ∧
    (∀ other : Scope σ, other.data = scope.data → other.resolvers = scope.resolvers →
      ∀ start ∈ ["this.", "./"], ∀ rest,
        other.get (start ++ rest) = scope.get (start ++ rest) ∧
        ∀ answers, List.Forall₂ Resolver.Computes scope.resolvers answers → ∀ state later,
          ((other.get (start ++ rest)).run later).1 = ((scope.get (start ++ rest)).run state).1) := by
  refine ⟨fun path name hne hlast hname hpoint => ?_, get_ups, fun other hdata hresolvers start hstart rest => ?_⟩
  . rw [get_append hne hlast hname hpoint]
    rfl
  . have hsame : other.get (start ++ rest) = scope.get (start ++ rest) := by
      rw [get_member hstart, get_member hstart, hdata, hresolvers]
    refine ⟨hsame, fun answers hanswers state later => ?_⟩
    have hfollow := (follow_answers hanswers scope.data (Path.membersOf rest.toList)).run
    rw [hsame, get_member hstart, hfollow, hfollow]

theorem get_composed_length :
    let items : Value := .array [.null, .bool true]
    let scope : Scope Unit :=
      (Engine.inert.rootScope (.map [("items", items)])).child .null <| .ofList [("items", .null)]
    let other : Scope Unit := Engine.inert.rootScope .null
    ("../items" ≠ "" ∧ (∀ c ∈ "../items".toList.getLast?, c ≠ '.' ∧ c ≠ '/') ∧ "length" ≠ "" ∧
        '.' ∉ "length".toList) ∧
      ((scope.get ("../items" ++ "." ++ "length")).run ()).1 = some (.ofNat 2) ∧
      (other.data = scope.data ∧ other.resolvers = scope.resolvers ∧ "this." ∈ ["this.", "./"] ∧
        List.Forall₂ Resolver.Computes scope.resolvers (Resolver.answers (fun _ _ => none) fun _ => none)) ∧
      ((other.get ("this." ++ "items")).run ()).1 = ((scope.get ("this." ++ "items")).run ()).1 := by
  intro items scope other
  obtain ⟨hmember, -, hcurrent⟩ := get_composed scope
  have hpath : (∀ c ∈ "../items".toList.getLast?, c ≠ '.' ∧ c ≠ '/') := by decide
  have hanswers : List.Forall₂ Resolver.Computes scope.resolvers (Resolver.answers (fun _ _ => none) fun _ => none) :=
    Resolver.builtIn_computes (fun _ _ => .pure rfl) fun _ => .pure rfl
  refine ⟨⟨by decide, hpath, by decide, by decide⟩, ?_, ⟨rfl, rfl, by simp, hanswers⟩, ?_⟩
  . rw [hmember "../items" "length" (by decide) hpath (by decide) (by decide)]
    rfl
  . exact (hcurrent other rfl rfl "this." (by simp) "items").2 _ hanswers () ()

end Scope

end Mustache
