import SchemaDiagram.Command.Arguments

namespace SchemaDiagram

def programName : Text := txt "prismerd"

def programTitle : Text := txt "Prisma schema to ER diagram engine"

def TaskName.about : TaskName → Text
  | .parse => txt "Print the parsed document model as JSON"
  | .diagram => txt "Print diagram nodes and edges as JSON"
  | .format => txt "Print the schema in canonical formatting"
  | .relate => txt "Add a relation between two fields"
  | .split => txt "Split a merged schema into its files"

def helpAbout : Text := txt "Print this message or the help of the given subcommand(s)"

namespace OptionForm

/-- The long name of an option with a name for its value. -/
def spelled (form : OptionForm) : Text :=
  txt "--" ++ form.long ++
    (if form.hasValue then txt " <" ++ form.long.map Char.toUpper ++ txt ">" else [])

def lead (form : OptionForm) : Text :=
  match form.letter with
  | some c => ['-', c] ++ txt ", "
  | none => txt "    "

/-- What an option is sorted by: its letter, the small one before the capital, or else its long name. -/
def sortKey (form : OptionForm) : Text :=
  match form.letter with
  | some c => [c.toLower, if c.isLower then '0' else '1']
  | none => form.long

/-- The options of two lists side by side: of two at the same place, the one of the smaller key is first. -/
def interleave : List OptionForm → List OptionForm → List OptionForm
  | a :: later, b :: others =>
    (if a.sortKey < b.sortKey then [a, b] else [b, a]) ++ interleave later others
  | later, [] => later
  | [], others => others

end OptionForm

/-- Lines of two columns. The second begins two spaces behind the longest entry of the first, where `lead`
stands in front of each entry and is not counted. -/
def columnLines (rows : List (Text × Text × Text)) : List Text :=
  let width := rows.foldl (fun width row => max width row.2.1.length) 0
  rows.map fun (lead, entry, about) =>
    txt "  " ++ lead ++ padTo (width + 2) entry ++ about

/-- A titled list of lines. There is none without lines. -/
def helpSection (title : String) (lines : List Text) : List Text :=
  if lines.isEmpty then [] else [joinWith (txt "\n") ((txt title ++ txt ":") :: lines)]

def usageLine (words : List Text) : Text := txt "Usage: " ++ joinWith (txt " ") (programName :: words)

/-- A help text: what it is about, how it is called, and its sections, with an empty line between. -/
def helpPage (about usage : Text) (commands arguments : List (Text × Text))
    (options : List OptionForm) : Text :=
  let plain (rows : List (Text × Text)) : List Text :=
    columnLines (rows.map fun (entry, about) => ([], entry, about))
  let sections :=
    helpSection "Commands" (plain commands) ++ helpSection "Arguments" (plain arguments) ++
      helpSection "Options" (columnLines (options.map fun form => (form.lead, form.spelled, form.about)))
  joinWith (txt "\n\n") (about :: usage :: sections) ++ txt "\n"

def TaskName.page (name : TaskName) : Text :=
  let required := (name.ownOptions.filter (·.required)).map (·.spelled)
  helpPage name.about
    (usageLine ([name.label, txt "[OPTIONS]"] ++ required ++ [txt "<INPUT>"])) []
    [(txt "<INPUT>", [])] (OptionForm.interleave name.ownOptions sharedOptions ++ [helpOption])

def HelpSubject.page : HelpSubject → Text
  | .program =>
    helpPage programTitle (usageLine [txt "[OPTIONS]", txt "<COMMAND>"])
      (TaskName.all.map (fun name => (name.label, name.about)) ++ [(helpWord, helpAbout)]) [] programOptions
  | .task name => name.page
  | .help =>
    helpPage helpAbout (usageLine [helpWord, txt "[COMMAND]..."]) []
      [(txt "[COMMAND]...", txt "Print help for the subcommand(s)")] []

end SchemaDiagram
