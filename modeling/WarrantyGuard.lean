import WarrantyGuard.Runs
import WarrantyGuard.Swift
import WarrantyGuard.CategorySound
import WarrantyGuard.SharedSound
import WarrantyGuard.DetailSound
import WarrantyGuard.SearchSound
import WarrantyGuard.LinkSound
import WarrantyGuard.SettleSound
import WarrantyGuard.CellSound
import WarrantyGuard.SessionSound
import WarrantyGuard.PolicySound
import WarrantyGuard.DisplaySound
import WarrantyGuard.ReminderSound
import WarrantyGuard.TableSound
import WarrantyGuard.DateFormSound
import WarrantyGuard.ShelfSound
import WarrantyGuard.NewestSound
import WarrantyGuard.ScreenSound
import WarrantyGuard.SearchScreenSound
import WarrantyGuard.ProfileSound
import WarrantyGuard.ReachSound
import WarrantyGuard.OwnProfileSound
