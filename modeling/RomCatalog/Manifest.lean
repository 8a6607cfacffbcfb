import RomCatalog.Settings
import RomCatalog.Text.Quoted

/-!
The generated code: a declaration for each ROM that embeds its file, an empty line, and the table
that pairs identifiers with declarations, all in the order of the list.
-/

namespace RomCatalog.Manifest

def declaration (settings : Settings) (rom : Rom) : String :=
  match settings.placement with
  | .inFunction =>
      "static " ++ settings.binding rom ++ ": &'static [u8] = include_bytes!(" ++
        Text.quote (settings.embedPath rom) ++ ");\n"
  | .atModule =>
      "#[allow(dead_code)]\n" ++
        ("pub static " ++ settings.binding rom ++ ": &[u8] = include_bytes!(" ++
          Text.quote (settings.embedPath rom) ++ ");\n")

def declarations (settings : Settings) (roms : List Rom) : String :=
  String.join (roms.map (declaration settings))

def tableHead (settings : Settings) : String :=
  match settings.placement with
  | .inFunction => "let " ++ settings.tableName ++ " = [\n"
  | .atModule => "pub static " ++ settings.tableName ++ ": &[(&str, &[u8])] = &[\n"

def row (settings : Settings) (rom : Rom) : String :=
  "    (" ++ Text.quote rom.identifier ++ ", " ++ settings.binding rom ++ "),\n"

def table (settings : Settings) (roms : List Rom) : String :=
  tableHead settings ++ String.join (roms.map (row settings)) ++ "];\n"

def text (settings : Settings) (roms : List Rom) : String :=
  declarations settings roms ++ "\n" ++ table settings roms

end RomCatalog.Manifest
