import Mathlib.Data.List.Basic
import Mathlib.Data.List.Induction
import Stencil.Variables

/-!
# What binding comes to

Binding goes through the declarations of a manifest and changes the variables on the way: what it looks up for
one declaration may have been put there for another. All the same, what is there at any point is known from
what the user gave and from the declarations that were gone through (`Variables.valueOf?`), since nothing that
is there ever changes: a name stands for what the user gave, or else for the default of its first declaration.

So it is known of every declaration whether something is wrong with it (`Declaration.Breaks`). Binding fails
for the first one of which that is the case, and if there is none it comes to what the user gave and the
defaults behind it (`Variables.bind_filled_or_first_fault`).
-/

namespace Stencil

namespace Entries

variable {α : Type} {name : String} {value : α} {entries more : Entries α}

theorem get?_append : get? name (entries ++ more) = (get? name entries).or (get? name more) := by
  induction entries with
  | nil => rfl
  | cons entry rest ih =>
      rw [List.cons_append, get?, get?, ih]
      split <;> rfl

theorem put_of_absent (h : get? name entries = none) : put name value entries = entries ++ [(name, value)] := by
  induction entries with
  | nil => rfl
  | cons entry rest ih =>
      rw [get?] at h
      split at h
      · cases h
      · rename_i hne
        rw [put, if_neg hne, ih h, List.cons_append]

/-- What names stand for that were given their values one by one. -/
theorem get?_filterMap (names : List String) (valueOf? : String → Option α) :
    get? name (names.filterMap fun n => (valueOf? n).map (n, ·)) =
      if name ∈ names then valueOf? name else none := by
  induction names with
  | nil => rfl
  | cons first rest ih =>
      rw [List.filterMap_cons]
      by_cases hname : first = name
      · subst hname
        cases hvalue : valueOf? first with
        | none => simp [hvalue, ih]
        | some value => simp [get?]
      · have hmem : name ∈ first :: rest ↔ name ∈ rest := by simp [Ne.symm hname]
        rw [if_congr hmem rfl rfl, ← ih]
        cases valueOf? first with
        | none => rfl
        | some value => simp [get?, hname]

end Entries

open Entries (get?)

namespace Variables

variable {vars bound : Variables} {before ds : List Declaration} {d : Declaration} {name : String}
  {value : Value} {fault : Binding.Fault}

/-- The default that stands in for a name: that of its first declaration. -/
def defaultOf? (ds : List Declaration) (name : String) : Option Value :=
  (ds.find? (·.name = name)).bind Declaration.default?

/-- What a name stands for once some declarations were gone through. -/
def valueOf? (vars : Variables) (ds : List Declaration) (name : String) : Option Value :=
  (get? name vars).or (defaultOf? ds name)

/-- The names that are declared but not given, in the order in which they are declared first. -/
def absent (vars : Variables) (ds : List Declaration) : List String :=
  (ds.map Declaration.name).eraseDups.filter fun name => !Entries.contains name vars

/-- The defaults that stand in for what is not given. -/
def defaults (vars : Variables) (ds : List Declaration) : Variables :=
  (absent vars ds).filterMap fun name => (defaultOf? ds name).map (name, ·)

/-- What is given, and behind it what stands in for the rest. -/
def filled (vars : Variables) (ds : List Declaration) : Variables := vars ++ defaults vars ds

end Variables

open Variables (valueOf? defaultOf? filled)

/-- What can be wrong with a declaration, the given variables and the declarations before it being known: that
there is no value for it, or that its value has not the type of its example. -/
inductive Declaration.Breaks (vars : Variables) (before : List Declaration) (d : Declaration) :
    Binding.Fault → Prop
  | missing (habsent : valueOf? vars before d.name = none) (hdefault : d.default? = none) :
    d.Breaks vars before (.missing d.name)
  | wrongType {value : Value} (hvalidate : d.validate = true)
    (hvalue : valueOf? vars (before ++ [d]) d.name = some value) (hfits : d.sample.fits value = false) :
    d.Breaks vars before (.wrongType d.name value.shapeText d.sample.shapeText)

namespace Variables

variable {vars bound : Variables} {before ds : List Declaration} {d : Declaration} {name : String}
  {value : Value} {fault : Binding.Fault}

/-! ## What is there at any point -/

theorem defaultOf?_append (first second : List Declaration) (name : String) :
    defaultOf? (first ++ second) name =
      if name ∈ first.map Declaration.name then defaultOf? first name else defaultOf? second name := by
  unfold defaultOf?
  rw [List.find?_append]
  cases hfound : first.find? (·.name = name) with
  | none =>
      rw [if_neg, Option.none_or]
      intro hmem
      obtain ⟨d, hd, hname⟩ := List.mem_map.mp hmem
      exact absurd hname (by simpa using List.find?_eq_none.mp hfound d hd)
  | some d =>
      rw [if_pos, Option.some_or]
      exact List.mem_map.mpr ⟨d, List.mem_of_find?_eq_some hfound, by simpa using List.find?_some hfound⟩

theorem defaultOf?_eq_none (h : name ∉ ds.map Declaration.name) : defaultOf? ds name = none := by
  have hfind : ds.find? (·.name = name) = none :=
    List.find?_eq_none.mpr fun d hd hname => h (List.mem_map.mpr ⟨d, hd, by simpa using hname⟩)
  rw [defaultOf?, hfind, Option.bind_none]

theorem mem_absent : name ∈ absent vars ds ↔ name ∈ ds.map Declaration.name ∧ get? name vars = none := by
  rw [absent, List.mem_filter, List.mem_eraseDups, Entries.contains, Bool.not_eq_true', Option.isSome_eq_false_iff,
    Option.isNone_iff_eq_none]

/-- **A name stands for what is given**, or else for the default of its first declaration. -/
theorem get?_filled (vars : Variables) (ds : List Declaration) (name : String) :
    get? name (filled vars ds) = valueOf? vars ds name := by
  rw [filled, Entries.get?_append, valueOf?, defaults, Entries.get?_filterMap]
  cases hgiven : get? name vars with
  | some value => rfl
  | none =>
      simp only [Option.none_or, mem_absent, hgiven, and_true]
      split
      · rfl
      · rename_i hnot
        exact (defaultOf?_eq_none hnot).symm

/-- What a name stands for does not change any more. -/
theorem valueOf?_append (h : (valueOf? vars before name).isSome = true) (ds : List Declaration) :
    valueOf? vars (before ++ ds) name = valueOf? vars before name := by
  unfold valueOf? at h ⊢
  cases hgiven : get? name vars with
  | some value => rfl
  | none =>
      rw [hgiven, Option.none_or] at h
      rw [defaultOf?_append, if_pos]
      by_contra hnot
      rw [defaultOf?_eq_none hnot] at h
      cases h

/-! ## One declaration -/

/-- Whether all that was declared has a value. -/
def Settled (vars : Variables) (ds : List Declaration) : Prop :=
  ∀ d ∈ ds, (valueOf? vars ds d.name).isSome = true

theorem settled_nil (vars : Variables) : Settled vars [] := fun _ hd => by cases hd

theorem absent_concat (vars : Variables) (ds : List Declaration) (d : Declaration) :
    absent vars (ds ++ [d]) = absent vars ds ++
      if d.name ∈ ds.map Declaration.name ∨ (get? d.name vars).isSome = true then [] else [d.name] := by
  unfold absent
  rw [List.map_append, List.eraseDups_append, List.filter_append]
  congr 1
  by_cases hdeclared : d.name ∈ ds.map Declaration.name
  · have hnone : (List.map Declaration.name [d]).removeAll (ds.map Declaration.name) = [] := by
      simpa [List.removeAll] using hdeclared
    rw [hnone, if_pos (Or.inl hdeclared)]
    rfl
  · have hself : (List.map Declaration.name [d]).removeAll (ds.map Declaration.name) = [d.name] := by
      simpa [List.removeAll] using hdeclared
    have hdup : [d.name].eraseDups = [d.name] := by simp [List.eraseDups_cons]
    rw [hself, hdup]
    cases hgiven : (get? d.name vars).isSome with
    | true => rw [if_pos (Or.inr rfl), List.filter_cons_of_neg (by simp [Entries.contains, hgiven]), List.filter_nil]
    | false =>
        rw [if_neg (by simpa using hdeclared), List.filter_cons_of_pos (by simp [Entries.contains, hgiven]),
          List.filter_nil]

/-- One more declaration adds its default, if there is no value for it yet. -/
theorem defaults_concat (vars : Variables) (ds : List Declaration) (d : Declaration) :
    defaults vars (ds ++ [d]) = defaults vars ds ++
      if d.name ∈ ds.map Declaration.name ∨ (get? d.name vars).isSome = true then []
      else (d.default?.map (d.name, ·)).toList := by
  unfold defaults
  rw [absent_concat, List.filterMap_append]
  congr 1
  · refine List.filterMap_congr fun name hname => ?_
    rw [defaultOf?_append, if_pos (mem_absent.mp hname).1]
  · split
    · rfl
    · rename_i hnot
      have hdefault : defaultOf? (ds ++ [d]) d.name = d.default? := by
        rw [defaultOf?_append, if_neg (not_or.mp hnot).1]
        simp [defaultOf?]
      rw [List.filterMap_cons, hdefault]
      cases d.default? <;> rfl

/-- What has a value is filled in already. -/
theorem filled_concat_of_some (h : (valueOf? vars before d.name).isSome = true) :
    filled vars (before ++ [d]) = filled vars before := by
  have hknown : d.name ∈ before.map Declaration.name ∨ (get? d.name vars).isSome = true := by
    by_contra hnot
    obtain ⟨hdeclared, hgiven⟩ := not_or.mp hnot
    rw [valueOf?, defaultOf?_eq_none hdeclared, Option.or_none] at h
    exact hgiven h
  rw [filled, defaults_concat, if_pos hknown, List.append_nil, filled]

/-- What is declared for the first time is filled in behind the rest. -/
theorem filled_concat_of_none (hsettled : Settled vars before) (h : valueOf? vars before d.name = none)
    (hdefault : d.default? = some value) :
    filled vars (before ++ [d]) = filled vars before ++ [(d.name, value)] := by
  have hnew : ¬ (d.name ∈ before.map Declaration.name ∨ (get? d.name vars).isSome = true) := by
    rintro (hdeclared | hgiven)
    · obtain ⟨e, he, hname⟩ := List.mem_map.mp hdeclared
      have hvalue := hsettled e he
      rw [hname, h] at hvalue
      cases hvalue
    · rw [valueOf?, Option.or_of_isSome hgiven] at h
      rw [h] at hgiven
      cases hgiven
  rw [filled, defaults_concat, if_neg hnew, hdefault, filled, List.append_assoc]
  rfl

/-- **Completing adds the default of what has no value**, and fails if there is none. -/
theorem complete_filled (hsettled : Settled vars before) (d : Declaration) :
    complete d (filled vars before) =
      if valueOf? vars before d.name = none ∧ d.default? = none then .error (.missing d.name)
      else .ok (filled vars (before ++ [d])) := by
  unfold complete
  rw [Entries.contains, get?_filled]
  cases hvalue : valueOf? vars before d.name with
  | some value =>
      have hsome : (valueOf? vars before d.name).isSome = true := by rw [hvalue, Option.isSome_some]
      simp [filled_concat_of_some hsome]
  | none =>
      have hnone : get? d.name (filled vars before) = none := (get?_filled vars before d.name).trans hvalue
      cases hdefault : d.default? with
      | none => simp
      | some default => simp [filled_concat_of_none hsettled hvalue hdefault, Entries.put_of_absent hnone]

/-- What is declared has a value once it was completed. -/
theorem valueOf?_concat (hsettled : Settled vars before)
    (h : ¬ (valueOf? vars before d.name = none ∧ d.default? = none)) :
    (valueOf? vars (before ++ [d]) d.name).isSome = true := by
  cases hvalue : valueOf? vars before d.name with
  | some value =>
      have hsome : (valueOf? vars before d.name).isSome = true := by rw [hvalue, Option.isSome_some]
      rw [valueOf?_append hsome, hsome]
  | none =>
      obtain ⟨default, hdefault⟩ := Option.ne_none_iff_exists'.mp fun hnone => h ⟨hvalue, hnone⟩
      rw [← get?_filled, filled_concat_of_none hsettled hvalue hdefault, Entries.get?_append, get?_filled, hvalue]
      simp [get?]

theorem settled_concat (hsettled : Settled vars before)
    (h : ¬ (valueOf? vars before d.name = none ∧ d.default? = none)) : Settled vars (before ++ [d]) := by
  intro e he
  rcases List.mem_append.mp he with hmem | hmem
  · rw [valueOf?_append (hsettled e hmem), hsettled e hmem]
  · obtain rfl := List.mem_singleton.mp hmem
    exact valueOf?_concat hsettled h

/-! ## All declarations -/

/-- Whether nothing is wrong with any of some declarations. -/
def Unbroken (vars : Variables) (ds : List Declaration) : Prop :=
  ∀ front d rest, ds = front ++ d :: rest → ∀ fault, ¬ d.Breaks vars front fault

theorem unbroken_nil (vars : Variables) : Unbroken vars [] := by
  intro front d rest h
  cases front <;> cases h

theorem Unbroken.concat (h : Unbroken vars before) (hd : ∀ fault, ¬ d.Breaks vars before fault) :
    Unbroken vars (before ++ [d]) := by
  intro front e rest heq
  rcases List.eq_nil_or_concat rest with rfl | ⟨rest, last, rfl⟩
  · obtain ⟨rfl, hlast⟩ := List.append_inj' heq rfl
    cases hlast
    exact hd
  · rw [List.concat_eq_append, ← List.cons_append, ← List.append_assoc] at heq
    exact h front e rest (List.append_inj' heq rfl).1

theorem Unbroken.of_append (h : Unbroken vars (before ++ ds)) : Unbroken vars before :=
  fun front d rest heq => h front d (rest ++ ds) (by rw [heq, List.append_assoc, List.cons_append])

/-- What nothing is wrong with has a value. -/
theorem Unbroken.settled (h : Unbroken vars ds) : Settled vars ds := by
  induction ds using List.reverseRecOn with
  | nil => exact settled_nil vars
  | append_singleton before d ih =>
      exact settled_concat (ih h.of_append) fun hmissing =>
        h before d [] rfl _ (.missing hmissing.1 hmissing.2)

/-- What nothing is wrong with has a value of the right type, if that is asked for. -/
theorem Unbroken.fits (h : Unbroken vars ds) (hd : d ∈ ds) :
    ∃ value, valueOf? vars ds d.name = some value ∧ (d.validate = true → d.sample.fits value = true) := by
  obtain ⟨value, hvalue⟩ := Option.isSome_iff_exists.mp (h.settled d hd)
  refine ⟨value, hvalue, fun hvalidate => ?_⟩
  obtain ⟨front, rest, rfl⟩ := List.append_of_mem hd
  have hsplit : front ++ d :: rest = (front ++ [d]) ++ rest := by simp
  have hfront : Unbroken vars (front ++ [d]) := of_append (hsplit ▸ h)
  have hsome : (valueOf? vars (front ++ [d]) d.name).isSome = true := hfront.settled d (by simp)
  rw [hsplit, valueOf?_append hsome] at hvalue
  by_contra hfits
  exact h front d rest rfl _ (.wrongType hvalidate hvalue (by simpa using hfits))

/-- Something is wrong with none of the declarations, or with a first one. -/
theorem unbroken_or_first (vars : Variables) (ds : List Declaration) :
    Unbroken vars ds ∨
      ∃ front d rest fault, ds = front ++ d :: rest ∧ Unbroken vars front ∧ d.Breaks vars front fault := by
  -- From the end: whether something is wrong with a declaration depends on those before it.
  induction ds using List.reverseRecOn with
  | nil => exact Or.inl (unbroken_nil vars)
  | append_singleton before d ih =>
      rcases ih with hbefore | ⟨front, e, rest, fault, rfl, hfront, he⟩
      · by_cases hd : ∃ fault, d.Breaks vars before fault
        · obtain ⟨fault, hd⟩ := hd
          exact Or.inr ⟨before, d, [], fault, rfl, hbefore, hd⟩
        · exact Or.inl (hbefore.concat (not_exists.mp hd))
      · exact Or.inr ⟨front, e, rest ++ [d], fault, by simp, hfront, he⟩

theorem bindAll_of_breaks (hbefore : Unbroken vars before) (hd : d.Breaks vars before fault)
    (rest : List Declaration) : bindAll (d :: rest) (filled vars before) = .error fault := by
  rw [bindAll, complete_filled hbefore.settled]
  cases hd with
  | missing habsent hdefault => rw [if_pos ⟨habsent, hdefault⟩]
  | wrongType hvalidate hvalue hfits =>
      -- The value that does not fit is there, so the declaration was completed before it was checked.
      have hcomplete : ¬ (valueOf? vars before d.name = none ∧ d.default? = none) := by
        rintro ⟨habsent, hdefault⟩
        rw [valueOf?, Option.or_eq_none_iff] at habsent
        rw [valueOf?, habsent.1, Option.none_or, defaultOf?_append] at hvalue
        split at hvalue
        · rw [habsent.2] at hvalue
          cases hvalue
        · simp [defaultOf?, hdefault] at hvalue
      rw [if_neg hcomplete]
      simp [check, get?_filled, hvalidate, hvalue, hfits]

theorem bindAll_of_unbroken (h : Unbroken vars (before ++ [d])) (rest : List Declaration) :
    bindAll (d :: rest) (filled vars before) = bindAll rest (filled vars (before ++ [d])) := by
  have hcomplete : ¬ (valueOf? vars before d.name = none ∧ d.default? = none) :=
    fun hmissing => h before d [] rfl _ (.missing hmissing.1 hmissing.2)
  obtain ⟨value, hvalue, hfits⟩ := h.fits (List.mem_append_right before (List.mem_singleton_self d))
  rw [bindAll, complete_filled h.of_append.settled, if_neg hcomplete]
  cases hvalidate : d.validate with
  | false => simp [check, hvalidate]
  | true => simp [check, hvalidate, get?_filled, hvalue, hfits hvalidate]

/-- Declarations with which nothing is wrong are gone through. -/
theorem bindAll_append {front : List Declaration} (h : Unbroken vars (before ++ front)) (rest : List Declaration) :
    bindAll (front ++ rest) (filled vars before) = bindAll rest (filled vars (before ++ front)) := by
  -- On what is still to be gone through; `filled` is what the variables have become by then.
  induction front generalizing before with
  | nil => rw [List.nil_append, List.append_nil]
  | cons d front ih =>
      have hsplit : before ++ d :: front = (before ++ [d]) ++ front := by simp
      rw [hsplit] at h ⊢
      rw [List.cons_append, bindAll_of_unbroken h.of_append, ih h]

theorem filled_nil (vars : Variables) : filled vars [] = vars := List.append_nil vars

theorem bindAll_unbroken (h : Unbroken vars ds) : bindAll ds vars = .ok (filled vars ds) := by
  have hrun : bindAll (ds ++ []) (filled vars []) = bindAll [] (filled vars ([] ++ ds)) := bindAll_append h []
  rwa [List.append_nil, filled_nil] at hrun

theorem bindAll_first (hfront : Unbroken vars before) (hd : d.Breaks vars before fault) (rest : List Declaration) :
    bindAll (before ++ d :: rest) vars = .error fault := by
  have hrun : bindAll (before ++ d :: rest) (filled vars []) = bindAll (d :: rest) (filled vars ([] ++ before)) :=
    bindAll_append hfront (d :: rest)
  rwa [filled_nil, List.nil_append, bindAll_of_breaks hfront hd] at hrun

/-- **Binding fails for the first declaration with which something is wrong.** -/
theorem bind_eq_error_iff {manifest : Manifest} : vars.bind manifest = .error fault ↔
    ∃ front d rest, manifest.declarations = front ++ d :: rest ∧ Unbroken vars front ∧ d.Breaks vars front fault := by
  unfold bind
  constructor
  · intro hfail
    rcases unbroken_or_first vars manifest.declarations with h | ⟨front, d, rest, fault', hsplit, hfront, hd⟩
    · rw [bindAll_unbroken h] at hfail
      cases hfail
    · rw [hsplit, bindAll_first hfront hd] at hfail
      cases hfail
      exact ⟨front, d, rest, hsplit, hfront, hd⟩
  · rintro ⟨front, d, rest, hsplit, hfront, hd⟩
    rw [hsplit, bindAll_first hfront hd]

/-- **Binding where nothing is wrong adds the defaults.** -/
theorem bind_eq_ok_iff {manifest : Manifest} : vars.bind manifest = .ok bound ↔
    Unbroken vars manifest.declarations ∧ bound = filled vars manifest.declarations := by
  unfold bind
  constructor
  · intro hok
    rcases unbroken_or_first vars manifest.declarations with h | ⟨front, d, rest, fault', hsplit, hfront, hd⟩
    · rw [bindAll_unbroken h] at hok
      exact ⟨h, (Except.ok.inj hok).symm⟩
    · rw [hsplit, bindAll_first hfront hd] at hok
      cases hok
  · rintro ⟨h, rfl⟩
    exact bindAll_unbroken h

/-- Every name that is filled in has its default. -/
theorem Unbroken.names_defaults (h : Unbroken vars ds) : (defaults vars ds).map Prod.fst = absent vars ds := by
  rw [defaults, List.map_filterMap]
  refine (List.filterMap_congr fun name hname => ?_).trans (List.filterMap_some)
  obtain ⟨hdeclared, hgiven⟩ := mem_absent.mp hname
  obtain ⟨d, hd, rfl⟩ := List.mem_map.mp hdeclared
  obtain ⟨value, hvalue⟩ := Option.isSome_iff_exists.mp (h.settled d hd)
  rw [valueOf?, hgiven, Option.none_or] at hvalue
  rw [hvalue]
  rfl

/-- Nothing is added where everything is there already. -/
theorem bindAll_same (h : ∀ d ∈ ds, ∃ value, get? d.name vars = some value ∧
    (d.validate = true → d.sample.fits value = true)) : bindAll ds vars = .ok vars := by
  induction ds with
  | nil => rfl
  | cons d rest ih =>
      obtain ⟨value, hvalue, hfits⟩ := h d List.mem_cons_self
      have hcomplete : complete d vars = .ok vars := by simp [complete, Entries.contains, hvalue]
      have hcheck : check d vars = .ok () := by
        cases hvalidate : d.validate with
        | false => simp [check, hvalidate]
        | true => simp [check, hvalidate, hvalue, hfits hvalidate]
      rw [bindAll, hcomplete]
      simp only [hcheck]
      exact ih fun e he => h e (List.mem_cons_of_mem d he)

/-- **Binding fails for the first declaration with which something is wrong, and else adds the defaults**: the
given variables stay as they are, and behind them are the defaults of the declared names that are absent, in the
order of the declarations. Then every declared name has a value, of the type of its example if that is asked for,
and binding once more changes nothing. -/
theorem bind_filled_or_first_fault (vars : Variables) (manifest : Manifest) :
    (∀ fault, vars.bind manifest = .error fault ↔
      ∃ front d rest, manifest.declarations = front ++ d :: rest ∧ Unbroken vars front ∧
        d.Breaks vars front fault) ∧
    ∀ bound, vars.bind manifest = .ok bound ↔
      Unbroken vars manifest.declarations ∧
      bound = vars ++ defaults vars manifest.declarations ∧
      (defaults vars manifest.declarations).map Prod.fst = absent vars manifest.declarations ∧
      (∀ d ∈ manifest.declarations, ∃ value, get? d.name bound = some value ∧
        (d.validate = true → d.sample.fits value = true)) ∧
      bound.bind manifest = .ok bound := by
  refine ⟨fun fault => bind_eq_error_iff, fun bound => ⟨fun hok => ?_, ?_⟩⟩
  · obtain ⟨h, rfl⟩ := bind_eq_ok_iff.mp hok
    have hfits : ∀ d ∈ manifest.declarations, ∃ value,
        get? d.name (filled vars manifest.declarations) = some value ∧
          (d.validate = true → d.sample.fits value = true) := by
      intro d hd
      rw [get?_filled]
      exact h.fits hd
    exact ⟨h, rfl, h.names_defaults, hfits, bindAll_same hfits⟩
  · rintro ⟨h, hbound, -⟩
    exact bind_eq_ok_iff.mpr ⟨h, hbound⟩

end Variables

end Stencil
