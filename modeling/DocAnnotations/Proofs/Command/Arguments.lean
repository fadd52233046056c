import DocAnnotations.Command

/-! # Arguments that are understood -/

namespace DocAnnotations.Command

/-- An argument that is taken for no option. -/
def IsPlain (arg : String) : Prop := arg.toList.head? ≠ some '-'

instance : DecidablePred IsPlain := fun arg =>
  inferInstanceAs (Decidable (arg.toList.head? ≠ some '-'))

variable (o : Options) {arg value name path qualifiedName : String}

/-! ## Sorting them -/

theorem isOption_of_plain (h : IsPlain arg) : isOption arg.toList = false := by
  have hhead : (arg.toList.head? == some '-') = false := by
    simpa [IsPlain] using h
  simp [isOption, hhead]

theorem ne_hyphens_of_plain (h : IsPlain arg) : (arg.toList == ['-', '-']) = false := by
  rw [beq_eq_false_iff_ne]
  intro heq
  exact h (by rw [heq]; rfl)

theorem sort_plain (rest : List String) (h : IsPlain arg) :
    o.sort (arg :: rest) =
      (o.sort rest).map fun a => { a with positional := arg :: a.positional } := by
  rw [Options.sort]
  simp [ne_hyphens_of_plain h, isOption_of_plain h]

theorem sort_valued (spelling : String) (rest : List String)
    (hopt : isOption spelling.toList = true) (hend : (spelling.toList == ['-', '-']) = false)
    (hname : o.named? spelling.toList = some (name, none))
    (hvalued : (o.valued.any fun v => v.1 = name) = true) (hvalue : IsPlain value) :
    o.sort (spelling :: value :: rest) =
      (o.sort rest).map fun a => { a with options := (name, value) :: a.options } := by
  rw [Options.sort]
  simp [hopt, hend, hname, hvalued, isOption_of_plain hvalue]

theorem sort_flag (spelling : String) (rest : List String)
    (hopt : isOption spelling.toList = true) (hend : (spelling.toList == ['-', '-']) = false)
    (hname : o.named? spelling.toList = some (name, none))
    (hvalued : (o.valued.any fun v => v.1 = name) = false)
    (hflag : o.flags.contains name = true) :
    o.sort (spelling :: rest) =
      (o.sort rest).map fun a => { a with flags := name :: a.flags } := by
  rw [Options.sort]
  simp only [hopt, hend, hname, hvalued, hflag]
  rfl

/-! ## Those of one command -/

def getArguments (path qualifiedName name : String) (all : Bool) : List String :=
  ["get", path, "-e", qualifiedName, "-n", name] ++ if all then ["--all"] else []

theorem sort_get (rest : List String) (hpath : IsPlain path) (hqualified : IsPlain qualifiedName)
    (hname : IsPlain name) :
    getOptions.sort (path :: "-e" :: qualifiedName :: "-n" :: name :: rest) =
      (getOptions.sort rest).map fun a => { a with
        positional := path :: a.positional
        options := ("element", qualifiedName) :: ("name", name) :: a.options } := by
  rw [sort_plain _ _ hpath, sort_valued _ "-e" _ rfl rfl rfl rfl hqualified,
    sort_valued _ "-n" _ rfl rfl rfl rfl hname]
  simp [Function.comp_def]

theorem ofArguments?_get (all : Bool) (hpath : IsPlain path) (hqualified : IsPlain qualifiedName)
    (hname : IsPlain name) :
    ofArguments? (getArguments path qualifiedName name all) =
      some (.get path qualifiedName name all) := by
  have hsort := fun rest => sort_get rest hpath hqualified hname
  cases all with
  | false => simp [getArguments, ofArguments?, hsort, Options.sort, Arguments.values]
  | true =>
    have hflag := sort_flag getOptions "--all" [] rfl rfl rfl rfl rfl
    simp [getArguments, ofArguments?, hsort, hflag, Options.sort, Arguments.values]

end DocAnnotations.Command
