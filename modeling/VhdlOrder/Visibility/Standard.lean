import VhdlOrder.Lexical.Identifier

/-! # The predefined package

The names that the package `standard` of the library `std` declares. They are visible everywhere
without a use clause.
-/

namespace VhdlOrder.Standard

/-- The declared names in small letters, other than `c128` to `c159`. -/
def names : List String :=
  ["boolean", "bit", "character", "severity_level", "integer", "natural", "positive", "real", "time",
   "delay_length", "string", "boolean_vector", "bit_vector", "integer_vector", "real_vector",
   "time_vector", "file_open_kind", "file_open_status", "file_open_state", "file_origin_kind",
   "universal_integer", "universal_real",
   "false", "true", "note", "warning", "error", "failure", "read_mode", "write_mode", "append_mode",
   "read_write_mode", "open_ok", "status_error", "name_error", "mode_error", "state_open",
   "state_closed", "file_origin_begin", "file_origin_current", "file_origin_end",
   "fs", "ps", "ns", "us", "ms", "sec", "min", "hr",
   "nul", "soh", "stx", "etx", "eot", "enq", "ack", "bel", "bs", "ht", "lf", "vt", "ff", "cr", "so",
   "si", "dle", "dc1", "dc2", "dc3", "dc4", "nak", "syn", "etb", "can", "em", "sub", "esc", "fsp",
   "gsp", "rsp", "usp", "del",
   "now", "minimum", "maximum", "to_string", "to_bstring", "to_ostring", "to_hstring",
   "rising_edge", "falling_edge", "deallocate", "file_open", "file_close", "read", "write", "endfile",
   "flush", "resize"]

/-- Whether `text` is one of `c128` to `c159`, the names of control characters. -/
def isControlCharacter : List Char → Bool
  | ['c', '1', tens, units] =>
      units.isDigit && (('3' ≤ tens && tens ≤ '5') || (tens == '2' && '8' ≤ units))
  | _ => false

/-- Whether the package declares the name. -/
def declares : Identifier → Bool
  | .basic text =>
      let text := Text.lower text.toList
      names.contains (String.ofList text) || isControlCharacter text
  | .extended _ => false

end VhdlOrder.Standard
