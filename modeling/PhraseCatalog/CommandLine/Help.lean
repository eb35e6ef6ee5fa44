/-! The help text of the command line. -/

set_option autoImplicit false

namespace PhraseCatalog.CommandLine

/-- The lines that show how the program is called, eighty columns wide. -/
def usageLines : List String :=
  ["usage: AutoI18n.py [-h] [-o OUTDIR] [-l LANG] [-p PROMPT] [-s SOURCE] [-t]",
   "                   [--no-format] [--llm-provider \x7bopenai,openrouter\x7d]",
   "                   [--model MODEL] [--openrouter-site-url OPENROUTER_SITE_URL]",
   "                   [--openrouter-site-name OPENROUTER_SITE_NAME]"]

def helpLines : List String :=
  usageLines ++
  ["",
   "Source Auto-i18n",
   "",
   "options:",
   "  -h, --help            show this help message and exit",
   "  -o OUTDIR, --outdir OUTDIR",
   "                        Output directory for the generated modules and cache",
   "                        (default: ./i18n)",
   "  -l LANG, --lang LANG  Comma separated language codes for the runtime",
   "                        (default: en,zh,ja,es,fr,hi)",
   "  -p PROMPT, --prompt PROMPT",
   "                        Extra style instruction for the translator (default:",
   "                        $I18N_AI_PROMPT)",
   "  -s SOURCE, --source SOURCE",
   "                        Directory to scan for i18n marker calls (default:",
   "                        current directory)",
   "  -t, --log-trace       Log detailed trace information",
   "  --no-format           Don't run prettier on the output directory",
   "  --llm-provider \x7bopenai,openrouter\x7d",
   "                        LLM provider to use (default: openai)",
   "  --model MODEL         Model to use for translation (default: gpt-4o-mini)",
   "  --openrouter-site-url OPENROUTER_SITE_URL",
   "                        Your site URL for OpenRouter rankings",
   "  --openrouter-site-name OPENROUTER_SITE_NAME",
   "                        Your site name for OpenRouter rankings",
   ""]

/-- What is printed for a refused command line, up to the reason. -/
def usageText : String := String.intercalate "\n" usageLines ++ "\nAutoI18n.py: error: "

def helpText : String := String.intercalate "\n" helpLines

end PhraseCatalog.CommandLine
