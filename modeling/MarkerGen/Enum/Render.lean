import MarkerGen.Enum.Table
import MarkerGen.Text.Literal

/-! The conversions of an enumeration as source text, put into the namespaces of the
enumeration so that overload resolution finds them. -/
namespace MarkerGen.Enum
open Text (escape lines)

/-- Includes, and a body inside the namespaces of the enumeration. -/
def wrap (t : Table) (includes : List String) (body : String) : String :=
  let gap := if t.namespaces.isEmpty then "" else "\n"
  "#pragma once\n\n" ++ lines (includes.map ("#include " ++ ·)) ++ "\n" ++
    lines (t.namespaces.map fun name => "namespace " ++ name ++ " \x7b") ++ gap ++ body ++ gap ++
    lines (t.namespaces.reverse.map fun name => "\x7d // namespace " ++ name)

def caseLine (t : Table) (row : Row) : String :=
  "    case " ++ t.qualify row ++ ": return \"" ++ escape row.label ++ "\";"

def fromStringLine (t : Table) (row : Row) : String :=
  "  if (text == \"" ++ escape row.label ++ "\") return " ++ t.qualify row ++ ";"

def stringConversions (t : Table) : String :=
  wrap t ["<optional>", "<string_view>"] <| lines <|
    ["inline constexpr std::string_view to_string(" ++ t.qualifiedName ++ " value) noexcept",
     "\x7b", "  switch (value) \x7b"] ++
    t.distinct.map (caseLine t) ++
    ["  \x7d", "  return \"<unknown>\";", "\x7d", "",
     "inline std::optional<" ++ t.qualifiedName ++ "> " ++ t.localName ++
       "_from_string(std::string_view text) noexcept",
     "\x7b"] ++
    t.rows.map (fromStringLine t) ++
    ["  return std::nullopt;", "\x7d"]

def jsonLine (t : Table) (row : Row) : String :=
  "  \x7b" ++ t.qualify row ++ ", \"" ++ escape row.label ++ "\"\x7d,"

def jsonConversions (t : Table) : String :=
  let names := t.localName ++ "_json_names"
  let loop := "  for (const auto& [item, name] : " ++ names ++ ") \x7b"
  wrap t ["<stdexcept>", "<string>", "<string_view>", "<utility>", "<nlohmann/json.hpp>"] <| lines <|
    ["inline constexpr std::pair<" ++ t.qualifiedName ++ ", std::string_view> " ++ names ++ "[] = \x7b"] ++
    t.distinct.map (jsonLine t) ++
    ["\x7d;", "",
     "inline void to_json(nlohmann::json& j, const " ++ t.qualifiedName ++ "& value)",
     "\x7b", loop,
     "    if (item == value) \x7b", "      j = name;", "      return;", "    \x7d", "  \x7d",
     "  j = nullptr;", "\x7d", "",
     "inline void from_json(const nlohmann::json& j, " ++ t.qualifiedName ++ "& value)",
     "\x7b", "  const auto text = j.get<std::string>();", loop,
     "    if (name == text) \x7b", "      value = item;", "      return;", "    \x7d", "  \x7d",
     "  throw std::invalid_argument(\"unknown " ++ escape t.qualifiedName ++ " value: \" + text);", "\x7d"]

end MarkerGen.Enum
