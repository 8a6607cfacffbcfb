import RomCatalog.Demo
import RomCatalog.Main
import RomCatalog.Proofs.Linking
import RomCatalog.Proofs.Unambiguous
import RomCatalog.Proofs.Scan
import RomCatalog.Proofs.Reproducible
import RomCatalog.Proofs.Delivery
import RomCatalog.Proofs.Footprint
import RomCatalog.Proofs.AllOrNothing
import RomCatalog.Proofs.SettingsFile
import RomCatalog.Proofs.EmbeddedFile
import RomCatalog.Proofs.EmbeddedLiterals
import RomCatalog.Proofs.SettingsMisfit
import RomCatalog.Proofs.SettingsChanges
import RomCatalog.Proofs.CheckedSteps
import RomCatalog.Proofs.Rebuild
import RomCatalog.Proofs.DeclaredNames
import RomCatalog.Proofs.ConfiguredRoot
import RomCatalog.Proofs.EmbedStart
import RomCatalog.Proofs.Accounting
import RomCatalog.Proofs.Extent
import RomCatalog.Proofs.PointedText
import RomCatalog.Proofs.TableLookup
