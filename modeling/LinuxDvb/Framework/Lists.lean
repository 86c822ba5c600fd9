import Mathlib.Data.List.FinRange
import Mathlib.Data.List.Infix
import Mathlib.Data.List.TakeWhile
import Mathlib.Data.Nat.Bitwise
import Mathlib.Data.Nat.ModEq

/-!
# Lemmas about lists

The lemmas about lists and optional values that are used throughout the project, under their short names.
-/

namespace LinuxDvb

export List (append_assoc append_cancel_left append_eq_nil_iff append_inj append_nil append_of_mem cons_append
  cons_ne_nil drop_drop drop_eq_nil_of_le drop_left drop_left' drop_succ_cons drop_zero eq_nil_of_length_eq_zero
  eq_of_mem_replicate exists_cons_of_ne_nil ext_getElem? filterMap_append filter_append find?_eq_none find?_some
  flatMap_cons flatMap_def flatMap_singleton flatten_cons flatten_nil foldl_append foldl_cons foldl_nil
  forall_mem_append forall_mem_cons forall_mem_nil forall_mem_singleton getD_eq_getElem getD_eq_getElem?_getD
  getElem?_append_left getElem?_cons_succ getElem?_cons_zero getElem?_eq_getElem getElem?_eq_none length_append
  length_cons length_drop length_eq_zero_iff length_map length_nil length_pos_iff length_range length_replicate
  length_reverse length_singleton length_take length_take_of_le map_append map_congr_left map_cons map_eq_nil_iff
  map_map map_nil mem_append mem_append_left mem_append_right mem_cons mem_cons_of_mem mem_cons_self mem_filter
  mem_flatMap mem_map mem_map_of_mem mem_of_getElem? mem_range mem_singleton mem_singleton_self nil_append nil_prefix
  nodup_append nodup_cons not_mem_nil prefix_append prefix_refl singleton_append takeWhile_cons take_add take_append
  take_append_drop take_append_of_le_length take_left take_left' take_length take_of_length_le)

export Option (bind_eq_bind bind_eq_some_iff bind_some elim_some getD_some isNone_none isSome_iff_exists isSome_none
  map_eq_some_iff map_some mem_def pure_def some_inj some_ne_none)

end LinuxDvb
