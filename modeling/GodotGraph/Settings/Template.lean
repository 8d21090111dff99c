/-!
Contract: the settings file that new users start from.

Owns: its text, which decides some settings in the standard way and names the others in
comments.
-/

set_option autoImplicit false

namespace GodotGraph.Settings.Template

def lines : List String := [
    "# gdscan configuration",
    "#",
    "# Every key is optional; command-line flags and GDSCAN_* environment",
    "# variables take precedence over values set here.",
    "",
    "# Godot project directory to scan",
    "# source_path = \".\"",
    "",
    "# Glob patterns for files and directories to skip",
    "exclude_patterns = [\".godot\", \".import\", \".git\", \"addons\"]",
    "",
    "# Maximum directory depth below source_path",
    "# max_depth = 8",
    "",
    "# Follow symbolic links while walking",
    "follow_links = false",
    "",
    "# Include .tscn and .tres files",
    "include_scenes = true",
    "",
    "# Extract files on all cores",
    "parallel = true",
    "",
    "# Report format: \"text\", \"json\" or \"csv\"",
    "output_format = \"text\"",
    "",
    "# Write the report here instead of stdout",
    "# output_file = \"gdscan-report.json\"",
    "",
    "use_colors = true",
    "show_progress = true",
    "",
    "# Log filter directive, e.g. \"gdscan=debug\"; RUST_LOG overrides it",
    "# log_level = \"warn\""]

def text : String := String.join (lines.map fun line => line ++ "\n")

end GodotGraph.Settings.Template
