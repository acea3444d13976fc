/-
# Options of the command

    --var NAME=VALUE --tree --lisp --conjugate --compare EXPR --max-depth MAX_DEPTH
    --no-implicit-multiplication --single-letter-variables --no-functions --help --version

* `Switch` : the options without a value;
* `Setting` : the options with one;
* `helpText` : what they are for.
-/

namespace ComplexFormula

/-! ## Switches -/

/-- Options without a value. -/
inductive Switch where
  | tree
  | prefixText
  | conjugate
  | explicitProducts
  | singleLetters
  | noFunctions
  | help
  | version
  deriving DecidableEq

namespace Switch

/-- All switches. -/
def all : List Switch :=
  [tree, prefixText, conjugate, explicitProducts, singleLetters, noFunctions, help, version]

/-- The name of a switch, which follows two dashes. -/
def name : Switch → String
  | tree => "tree"
  | prefixText => "lisp"
  | conjugate => "conjugate"
  | explicitProducts => "no-implicit-multiplication"
  | singleLetters => "single-letter-variables"
  | noFunctions => "no-functions"
  | help => "help"
  | version => "version"

/-- How a switch is written. -/
def usage (s : Switch) : String := "--" ++ s.name

/-- What a switch does. -/
def purpose : Switch → String
  | tree => "Print the syntax tree with the value and the variables"
  | prefixText => "Print the syntax tree in prefix notation"
  | conjugate => "Evaluate the conjugate of the expression"
  | explicitProducts => "Require a sign for every product"
  | singleLetters => "Read each letter as a variable of its own"
  | noFunctions => "Read the names of functions as variables"
  | help => "Print this help (also -h)"
  | version => "Print the version (also -V)"

end Switch

/-! ## Settings -/

/-- Options with a value. -/
inductive Setting where
  | binding
  | compare
  | nestingLimit
  deriving DecidableEq

namespace Setting

/-- All settings. -/
def all : List Setting := [binding, compare, nestingLimit]

/-- The name of a setting, which follows two dashes. -/
def name : Setting → String
  | binding => "var"
  | compare => "compare"
  | nestingLimit => "max-depth"

/-- What the value of a setting is called. -/
def placeholder : Setting → String
  | binding => "NAME=VALUE"
  | compare => "EXPR"
  | nestingLimit => "MAX_DEPTH"

/-- How a setting is written. -/
def usage (s : Setting) : String := "--" ++ s.name ++ " <" ++ s.placeholder ++ ">"

/-- What a setting sets. -/
def purpose : Setting → String
  | binding => "Bind a variable; may be repeated"
  | compare => "Tell whether EXPR has the same syntax tree"
  | nestingLimit => "Limit how deep parentheses, functions and roots are nested"

end Setting

/-! ## Help -/

/-- An option and its purpose, two lines. -/
def helpEntry (usage purpose : String) : String :=
  "  " ++ usage ++ "\n      " ++ purpose ++ "\n"

/-- The explanation of all options. -/
def helpText : String :=
  "Usage: calcplex [OPTIONS] [EXPRESSION]\n\nOptions:\n" ++
    String.join (Setting.all.map fun s => helpEntry s.usage s.purpose) ++
    String.join (Switch.all.map fun s => helpEntry s.usage s.purpose)

end ComplexFormula
