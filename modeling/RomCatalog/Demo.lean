import RomCatalog.FileSystem.Edit
import RomCatalog.Menu
import RomCatalog.Scan

/-!
A menu over three small ROMs, embedded from a directory as a build embeds them.
-/

namespace RomCatalog.Demo

def directory : Path := Path.ofString "/games"

def files : FileSystem :=
  (((FileSystem.bare.makeDirectories directory).writeFile
      (Path.ofString "/games/Cave.ch8") [0x00, 0xef, 0xbf, 0xbd, 0x48, 0x60, 0x00]).writeFile
      (Path.ofString "/games/PONG") [0x6a, 0x02, 0x6b, 0x0c, 0x6c, 0x3f, 0x6d, 0x0c]).writeFile
      (Path.ofString "/games/TANK") [0x12, 0x30]

def contents (rom : Rom) : Bytes :=
  (files.read (directory.join (Path.ofString rom.name))).toOption.getD []

def table : Table :=
  match (Scan.scan files directory true).outcome with
  | .ok roms => Table.embed contents roms
  | _ => []

def output : String :=
  Menu.overview table "PONG"

end RomCatalog.Demo
